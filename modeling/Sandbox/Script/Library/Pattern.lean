import Sandbox.Script.Numeral

/-!
# Patterns

Matching of texts against patterns: classes of bytes with repetition, captures, balanced pairs,
frontiers and references to earlier captures. A longest repetition is tried first, or a shortest one
first where the pattern says so.
-/

namespace Sandbox.Script
namespace Pattern

/-- What is wrong with a pattern. -/
inductive Problem
  | endsWithEscape
  | openSet
  | noFrontierSet
  | noBalance
  | badCapture (index : Int)
  | badClosing
  | unfinishedCapture
  | manyCaptures
  deriving DecidableEq, Repr

/-- The wording of a problem. -/
def Problem.message : Problem → String
  | .endsWithEscape => "malformed pattern (ends with '%')"
  | .openSet => "malformed pattern (missing ']')"
  | .noFrontierSet => "missing '[' after '%f' in pattern"
  | .noBalance => "malformed pattern (missing arguments to '%b')"
  | .badCapture index => s!"invalid capture index %{index}"
  | .badClosing => "invalid pattern capture"
  | .unfinishedCapture => "unfinished capture"
  | .manyCaptures => "too many captures"

/-- How far a capture goes. -/
inductive Extent
  | unfinished
  | position
  | closed (length : Nat)
  deriving DecidableEq, Repr

/-- A capture. -/
structure Capture where
  start : Nat
  extent : Extent
  deriving DecidableEq, Repr

/-- One byte of a text, as a pattern describes it. -/
inductive Single
  | any
  | byte (b : UInt8)
  | letter (c : UInt8)
  | set (isNegated : Bool) (items : List UInt8)
  deriving DecidableEq, Repr

/-- A byte in a range. -/
def isWithin (low high b : UInt8) : Bool := low ≤ b && b ≤ high

/-- The byte is in the class of a letter; a capital letter stands for all other bytes. -/
def inClass (letter b : UInt8) : Bool :=
  let isLower := isWithin 0x61 0x7A b
  let isUpper := isWithin 0x41 0x5A b
  let isDigit := isWithin 0x30 0x39 b
  let isGraph := isWithin 0x21 0x7E b
  let member? : Option Bool := match letter ||| 0x20 with
    | 0x61 => some (isLower || isUpper)
    | 0x63 => some (b < 0x20 || b == 0x7F)
    | 0x64 => some isDigit
    | 0x67 => some isGraph
    | 0x6C => some isLower
    | 0x70 => some (isGraph && !(isLower || isUpper || isDigit))
    | 0x73 => some (Numeral.isSpace b)
    | 0x75 => some isUpper
    | 0x77 => some (isLower || isUpper || isDigit)
    | 0x78 => some (Numeral.hexValue? b).isSome
    | _ => none
  match member? with
  | some m => if isWithin 0x41 0x5A letter then !m else m
  | none => letter == b

/-- The byte is in a set. -/
def inSet (b : UInt8) : List UInt8 → Bool
  | 0x25 :: letter :: rest => inClass letter b || inSet b rest
  | low :: 0x2D :: high :: rest => isWithin low high b || inSet b rest
  | c :: rest => c == b || inSet b rest
  | [] => false

/-- The byte is as described. -/
def Single.matches (s : Single) (b : UInt8) : Bool :=
  match s with
  | .any => true
  | .byte c => c == b
  | .letter c => inClass c b
  | .set isNegated items => inSet b items != isNegated

/-- The items of a set up to its closing bracket, of which the first may be a bracket. -/
def setItems : List UInt8 → List UInt8 → Except Problem (List UInt8 × List UInt8)
  | [], _ => .error .openSet
  | 0x25 :: c :: 0x5D :: rest, acc => .ok ((c :: 0x25 :: acc).reverse, rest)
  | 0x25 :: c :: rest, acc => setItems rest (c :: 0x25 :: acc)
  | c :: 0x5D :: rest, acc => .ok ((c :: acc).reverse, rest)
  | c :: rest, acc => setItems rest (c :: acc)

/-- The description of one byte at the start of a pattern, and what follows it. -/
def single (p : List UInt8) : Except Problem (Single × List UInt8) :=
  match p with
  | [] => .error .endsWithEscape
  | 0x2E :: rest => .ok (.any, rest)
  | [0x25] => .error .endsWithEscape
  | 0x25 :: c :: rest => .ok (.letter c, rest)
  | 0x5B :: 0x5E :: rest => (setItems rest []).map fun (s, r) => (.set true s, r)
  | 0x5B :: rest => (setItems rest []).map fun (s, r) => (.set false s, r)
  | c :: rest => .ok (.byte c, rest)

/-- Tries places until one gives an answer. -/
def tryEach {α ε : Type} (act : Nat → Except ε (Option α)) : List Nat → Except ε (Option α)
  | [] => .ok none
  | i :: rest => do
    match ← act i with
    | some a => return some a
    | none => tryEach act rest

/-- The number of bytes from a place on that are as described. -/
def countMatches (text : ByteArray) (s : Single) (start : Nat) : Nat :=
  ((List.range (text.size - start)).takeWhile fun i =>
    match text.data[start + i]? with
    | some b => s.matches b
    | none => false).length

/-- The end of a balanced pair whose opening byte stands in front of `place`. -/
def balancedEnd (text : ByteArray) (opening closing : UInt8) : Nat → Nat → Nat → Option Nat
  | 0, _, _ => none
  | fuel + 1, place, level =>
    match text.data[place]? with
    | none => none
    | some b =>
      if b == closing then
        if level = 1 then some (place + 1)
        else balancedEnd text opening closing fuel (place + 1) (level - 1)
      else if b == opening then balancedEnd text opening closing fuel (place + 1) (level + 1)
      else balancedEnd text opening closing fuel (place + 1) level

/-- The most captures of a pattern. -/
def captureLimit : Nat := 32

/-- The index of the last capture that is not finished. -/
def lastUnfinished? (captures : Array Capture) : Option Nat :=
  ((List.range captures.size).filter fun i =>
    (captures[i]?.map (·.extent)) == some .unfinished).getLast?

/-- The end of a match of a pattern from a place on, with its captures. The fuel is more than the
length of the pattern. -/
def run (text : ByteArray) : Nat → Nat → List UInt8 → Array Capture →
    Except Problem (Option (Nat × Array Capture))
  | 0, _, _, _ => .ok none
  | fuel + 1, s, p, captures =>
    let plain : Except Problem (Option (Nat × Array Capture)) := do
      let (one, rest) ← single p
      let isHere := match text.data[s]? with
        | some b => one.matches b
        | none => false
      match rest with
      | 0x3F :: rest =>
        tryEach (run text fuel · rest captures) (if isHere then [s + 1, s] else [s])
      | 0x2A :: rest =>
        let n := countMatches text one s
        tryEach (fun i => run text fuel (s + n - i) rest captures) (List.range (n + 1))
      | 0x2B :: rest =>
        let n := countMatches text one s
        tryEach (fun i => run text fuel (s + n - i) rest captures) (List.range n)
      | 0x2D :: rest =>
        let n := countMatches text one s
        tryEach (fun i => run text fuel (s + i) rest captures) (List.range (n + 1))
      | _ => if isHere then run text fuel (s + 1) rest captures else return none
    let opened (extent : Extent) (rest : List UInt8) :
        Except Problem (Option (Nat × Array Capture)) :=
      if captures.size ≥ captureLimit then .error .manyCaptures
      else run text fuel s rest (captures.push ⟨s, extent⟩)
    match p with
    | [] => .ok (some (s, captures))
    | 0x28 :: 0x29 :: rest => opened .position rest
    | 0x28 :: rest => opened .unfinished rest
    | 0x29 :: rest =>
      match lastUnfinished? captures with
      | none => .error .badClosing
      | some i =>
        run text fuel s rest (captures.modify i fun c => { c with extent := .closed (s - c.start) })
    | [0x24] => .ok (if s = text.size then some (s, captures) else none)
    | 0x25 :: 0x62 :: rest =>
      match rest with
      | opening :: closing :: rest =>
        if text.data[s]? == some opening then
          match balancedEnd text opening closing (text.size + 1) (s + 1) 1 with
          | some e => run text fuel e rest captures
          | none => .ok none
        else .ok none
      | _ => .error .noBalance
    | 0x25 :: 0x66 :: rest =>
      match rest with
      | 0x5B :: _ => do
        let (one, rest) ← single rest
        let before := if s = 0 then 0 else text.data.getD (s - 1) 0
        let here := text.data.getD s 0
        if !one.matches before && one.matches here then run text fuel s rest captures
        else return none
      | _ => .error .noFrontierSet
    | 0x25 :: c :: rest =>
      if Numeral.isDigit c then
        let index : Int := (c.toNat : Int) - 0x31
        match if index < 0 then none else captures[index.toNat]? with
        | some ⟨start, .closed length⟩ =>
          let wanted := text.extract start (start + length)
          if text.extract s (s + length) == wanted && s + length ≤ text.size then
            run text fuel (s + length) rest captures
          else .ok none
        | some ⟨_, .position⟩ => .ok none
        | _ => .error (.badCapture (index + 1))
      else plain
    | _ => plain

/-- The match of a pattern at a place. -/
def matchAt (text : ByteArray) (place : Nat) (pattern : List UInt8) :
    Except Problem (Option (Nat × Array Capture)) :=
  run text (pattern.length + 1) place pattern #[]

/-- A match: its two ends and its captures. -/
structure Match where
  start : Nat
  stop : Nat
  captures : Array Capture

/-- The first match from a place on. A pattern that begins with `^` matches there or not at all. -/
def search (text : ByteArray) (start : Nat) (pattern : ByteArray) :
    Except Problem (Option Match) :=
  match pattern.toList with
  | 0x5E :: rest => do
    return (← matchAt text start rest).map fun (stop, captures) => ⟨start, stop, captures⟩
  | p =>
    tryEach (fun i => do
      let place := start + i
      return (← matchAt text place p).map fun (stop, captures) => ⟨place, stop, captures⟩)
      (List.range (text.size + 1 - start))

/-- The value of a capture. The whole match stands for the first one where there is none. -/
def Match.capture (m : Match) (text : ByteArray) (index : Nat) : Except Problem Value :=
  match m.captures[index]? with
  | some ⟨start, .closed length⟩ => .ok (.text (text.extract start (start + length)))
  | some ⟨start, .position⟩ => .ok (.int (.ofNat (start + 1)))
  | some ⟨_, .unfinished⟩ => .error .unfinishedCapture
  | none =>
    if index = 0 then .ok (.text (text.extract m.start m.stop))
    else .error (.badCapture (index + 1))

/-- The values of all captures, or the whole match if `orWhole` and there is none. -/
def Match.values (m : Match) (text : ByteArray) (orWhole : Bool) : Except Problem (List Value) :=
  let count := if m.captures.isEmpty && orWhole then 1 else m.captures.size
  (List.range count).mapM (m.capture text ·)

/-- The bytes that mean something else than themselves. -/
def specials : List UInt8 := "^$*+?.([%-".toUTF8.toList

/-- The pattern stands for nothing but itself. -/
def isPlain (pattern : ByteArray) : Bool := !pattern.toList.any specials.contains

/-- The first place from `start` on at which a text stands in another one. -/
def indexOf? (text : ByteArray) (start : Nat) (wanted : ByteArray) : Option Nat :=
  (List.range (text.size + 1 - start)).findSome? fun i =>
    let place := start + i
    if place + wanted.size ≤ text.size && text.extract place (place + wanted.size) == wanted then
      some place
    else none

end Pattern
end Sandbox.Script
