import Sandbox.Script.Library.Argument
import Sandbox.Script.Token

/-!
# The functions on characters

A text as a sequence of encoded characters. Positions count bytes from 1.
-/

namespace Sandbox.Script
namespace Run

variable {H W : Type}

/-- A byte that goes on an encoded character. -/
def isContinuationAt (s : ByteArray) (i : Nat) : Bool :=
  match s.data[i]? with
  | some b => b &&& 0xC0 == 0x80
  | none => false

/-- The least number that needs each count of bytes behind the first one. -/
def leastCode (tail : Nat) : Nat := [0, 0x80, 0x800, 0x10000, 0x200000, 0x4000000].getD tail 0

/-- The character at a place and its length. -/
def decodeAt? (isLax : Bool) (s : ByteArray) (i : Nat) : Option (Nat × Nat) := do
  let b ← s.data[i]?
  if b < 0x80 then return (b.toNat, 1)
  let tail := if b < 0xC0 then 0 else if b < 0xE0 then 1 else if b < 0xF0 then 2
    else if b < 0xF8 then 3 else if b < 0xFC then 4 else if b < 0xFE then 5 else 0
  if tail = 0 then none
  if !(List.range tail).all fun k => isContinuationAt s (i + k + 1) then none
  let code := (List.range tail).foldl
    (fun acc k => acc * 64 + (s.data.getD (i + k + 1) 0).toNat % 64) (b.toNat % 1 <<< (6 - tail))
  if code < leastCode tail || code > 0x7FFFFFFF then none
  if !isLax && (code > 0x10FFFF || (0xD800 ≤ code && code ≤ 0xDFFF)) then none
  return (code, tail + 1)

/-- A position from the front for one that may be negative. -/
def absolute (i : Int) (size : Nat) : Int :=
  if i ≥ 0 then i else if -i > size then 0 else (size : Int) + i + 1

/-- The numbers of the characters that begin between two positions. -/
def codePoints (s : ByteArray) (isLax : Bool) (stop : Int) : Nat → Int → List Value →
    Run H W (List Value)
  | 0, _, acc => return acc.reverse
  | fuel + 1, i, acc => do
    if i ≥ stop then return acc.reverse
    match decodeAt? isLax s i.toNat with
    | some (code, size) => codePoints s isLax stop fuel (i + size) (.int (.ofNat code) :: acc)
    | none => raiseForCaller "invalid UTF-8 code"

/-- The number of characters that begin between two positions, or the place of a flaw. -/
def countCharacters (s : ByteArray) (isLax : Bool) (last : Int) : Nat → Int → Nat → List Value
  | 0, _, n => [.int (.ofNat n)]
  | fuel + 1, i, n =>
    if i > last then [.int (.ofNat n)]
    else match decodeAt? isLax s i.toNat with
      | some (_, size) => countCharacters s isLax last fuel (i + size) (n + 1)
      | none => [.nil, .int (.ofInt (i + 1))]

/-- The next character of a loop over characters. -/
def nextCharacter (isLax : Bool) (arguments : List Value) : Run H W (List Value) := do
  let s ← textArgument arguments 1
  let n := (← integerArgument arguments 2).toUInt64.toNat
  let start := if n = 0 then 0
    else n + ((List.range (s.size - n)).takeWhile fun k => isContinuationAt s (n + k)).length
  if start ≥ s.size then return []
  match decodeAt? isLax s start with
  | some (code, size) =>
    if isContinuationAt s (start + size) then raiseForCaller "invalid UTF-8 code"
    else return [.int (.ofNat (start + 1)), .int (.ofNat code)]
  | none => raiseForCaller "invalid UTF-8 code"

/-- The place of the character that is `n` characters away. -/
def moveCharacters (s : ByteArray) : Nat → Int → Int → Option Int
  | 0, _, _ => none
  | fuel + 1, n, place =>
    let back (p : Int) : Int :=
      p - (((List.range p.toNat).takeWhile fun k => isContinuationAt s (p.toNat - k)).length : Int)
    let forth (p : Int) : Int :=
      p + (((List.range (s.size + 1)).takeWhile fun k => isContinuationAt s (p.toNat + k)).length : Int)
    if n = 0 then some place
    else if n < 0 then
      if place ≤ 0 then none else moveCharacters s fuel (n + 1) (back (place - 1))
    else if place ≥ s.size then none
    else moveCharacters s fuel (n - 1) (forth (place + 1))

end Run

open Run in
/-- What a function on characters does. -/
def CharacterRoutine.run {H W : Type} (r : CharacterRoutine) (arguments : List Value) :
    Run H W (List Value) := do
  match r with
  | .char =>
    let bytes ← (List.range arguments.length).mapM fun i => do
      let n := (← integerArgument arguments (i + 1)).toInt
      if n < 0 || n > 0x7FFFFFFF then raiseArgument (i + 1) "value out of range"
      else return Lexer.encodeWide n.toNat
    return [.text ⟨bytes.flatten.toArray⟩]
  | .codepoint =>
    let s ← textArgument arguments 1
    let first := absolute (← integerOr arguments 2 1) s.size
    let last := absolute (← integerOr arguments 3 first) s.size
    if first < 1 then raiseArgument 2 "out of bounds"
    if last > s.size then raiseArgument 3 "out of bounds"
    if first > last then return []
    codePoints s (given arguments 4).isTrue last (s.size + 1) (first - 1) []
  | .codes =>
    let s ← textArgument arguments 1
    if isContinuationAt s 0 then raiseArgument 1 "invalid UTF-8 code"
    let isLax := (given arguments 2).isTrue
    return [← newFunction (.routine (.character (.codesStep isLax))), given arguments 1, .int 0]
  | .codesStep isLax => nextCharacter isLax arguments
  | .len =>
    let s ← textArgument arguments 1
    let first := absolute (← integerOr arguments 2 1) s.size
    let last := absolute (← integerOr arguments 3 (-1)) s.size
    if first < 1 || first > s.size + 1 then raiseArgument 2 "initial position out of bounds"
    if last > s.size then raiseArgument 3 "final position out of bounds"
    return countCharacters s (given arguments 4).isTrue (last - 1) (s.size + 1) (first - 1) 0
  | .offset =>
    let s ← textArgument arguments 1
    let n := (← integerArgument arguments 2).toInt
    let standard : Int := if n > 0 then 1 else s.size + 1
    let place := absolute (← integerOr arguments 3 standard) s.size - 1
    if place < 0 || place > s.size then raiseArgument 3 "position out of bounds"
    if n = 0 then
      let start := place - (((List.range place.toNat).takeWhile fun k =>
        isContinuationAt s (place.toNat - k)).length : Int)
      return [.int (.ofInt (start + 1))]
    if isContinuationAt s place.toNat then raiseForCaller "initial position is a continuation byte"
    match moveCharacters s (s.size + 2) (if n > 0 then n - 1 else n) place with
    | some p => return [.int (.ofInt (p + 1))]
    | none => return [.nil]

end Sandbox.Script
