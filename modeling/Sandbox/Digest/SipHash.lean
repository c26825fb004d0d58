/-!
# SipHash with one round a word and three rounds at the end

The keyed hash of a byte sequence, for the two zero keys. `SipHash.hash` takes whole words first and
then one last word that holds the remaining bytes and the length of the message.
-/

namespace Sandbox.SipHash

/-- The four words of the internal state. -/
structure State where
  a : UInt64
  b : UInt64
  c : UInt64
  d : UInt64
  deriving DecidableEq, Repr

/-- Rotates a word to the left. -/
def rotate (x amount : UInt64) : UInt64 := (x <<< amount) ||| (x >>> (64 - amount))

/-- The state before any input, for zero keys. -/
def State.start : State :=
  ⟨0x736f6d6570736575, 0x646f72616e646f6d, 0x6c7967656e657261, 0x7465646279746573⟩

/-- One mixing round. -/
def State.round (s : State) : State :=
  let a := s.a + s.b
  let b := rotate s.b 13 ^^^ a
  let a := rotate a 32
  let c := s.c + s.d
  let d := rotate s.d 16 ^^^ c
  let a := a + d
  let d := rotate d 21 ^^^ a
  let c := c + b
  let b := rotate b 17 ^^^ c
  let c := rotate c 32
  ⟨a, b, c, d⟩

/-- Takes one word of input. -/
def State.absorb (s : State) (word : UInt64) : State :=
  let s := { s with d := s.d ^^^ word }.round
  { s with a := s.a ^^^ word }

/-- The value of the state after all input. -/
def State.finish (s : State) : UInt64 :=
  let s := { s with c := s.c ^^^ 0xff }.round.round.round
  s.a ^^^ s.b ^^^ s.c ^^^ s.d

/-- The word whose little-endian bytes are given. -/
def wordOf (bytes : List UInt8) : UInt64 :=
  bytes.foldr (fun b acc => (acc <<< 8) ||| b.toUInt64) 0

/-- Takes the whole words of the input and then the last one, which carries the length. -/
def absorbAll (s : State) (length : Nat) : List UInt8 → State
  | b0 :: b1 :: b2 :: b3 :: b4 :: b5 :: b6 :: b7 :: rest =>
    absorbAll (s.absorb (wordOf [b0, b1, b2, b3, b4, b5, b6, b7])) length rest
  | rest => s.absorb (wordOf rest ||| (length.toUInt64 <<< 56))

/-- The hash of a byte sequence. -/
def hash (bytes : List UInt8) : UInt64 :=
  (absorbAll .start bytes.length bytes).finish

/-- The `count` low bytes of a word, the lowest first. -/
def littleEndian (count : Nat) (word : UInt64) : List UInt8 :=
  (List.range count).map fun i => (word >>> (8 * i).toUInt64).toUInt8

end Sandbox.SipHash
