import Sandbox.Script.Fault
import Sandbox.Script.Parser

/-!
# Compiling chunks

A source that begins with an escape byte is a precompiled chunk. `Chunk.compile` takes a mode that says
which kinds of chunks it accepts; precompiled ones have no format that it reads.
-/

namespace Sandbox.Chunk

/-- A source whose first byte is this one is a precompiled chunk. -/
def escapeByte : UInt8 := 0x1B

/-- The source is a precompiled chunk. -/
def isBinary (source : ByteArray) : Bool := source.toList.head? == some escapeByte

/-- The mode that admits text only. -/
def textMode : String := "t"

/-- Why a source does not compile. -/
inductive Refusal
  /-- The mode admits no chunks of this kind. -/
  | kind (isBinary : Bool) (mode : String)
  /-- A precompiled chunk is in no format that is read. -/
  | format (chunk : String)
  | flawed (chunk : String) (flaw : Script.Flaw)
  deriving DecidableEq, Repr

/-- The wording of a refusal. -/
def Refusal.message : Refusal → String
  | .kind isBinary mode =>
    let kind := if isBinary then "binary" else "text"
    s!"attempt to load a {kind} chunk (mode is '{mode}')"
  | .format chunk => s!"{chunk}: bad binary format (truncated chunk)"
  | .flawed chunk flaw => flaw.message chunk

/-- A refusal as a fault of the host. A source that is nested too deep is refused while it is read on. -/
def Refusal.fault : Refusal → Script.Fault
  | .flawed _ ⟨_, .tooDeep, _⟩ => .runtime Script.Flaw.Cause.tooDeep.message
  | r => .grammar r.message

/-- The most bytes of a chunk's name in error texts, and one. -/
def nameLimit : Nat := 60

/-- The name of a chunk in error texts. A name behind `=` is cut at its end, and one behind `@` at its
start; any other name is source text, of which the first line shows. -/
def displayName (name : ByteArray) : String :=
  let bytes := name.toList.takeWhile (· ≠ 0)
  let text (s : List UInt8) : String := (ByteArray.mk s.toArray).toTextLossy
  match bytes with
  | 0x3D :: rest => text (rest.take (nameLimit - 1))
  | 0x40 :: rest =>
    if rest.length < nameLimit then text rest
    else "..." ++ text (rest.drop (rest.length - (nameLimit - 4)))
  | _ =>
    let room := nameLimit - 15
    let line := bytes.takeWhile (· ≠ 0x0A)
    if bytes.length < room && line.length = bytes.length then s!"[string \"{text bytes}\"]"
    else s!"[string \"{text (line.take room)}...\"]"

/-- The name of a precompiled chunk. -/
def binaryName (name : ByteArray) : String :=
  let bytes := name.toList.takeWhile (· ≠ 0)
  let text (s : List UInt8) : String := (ByteArray.mk s.toArray).toTextLossy
  match bytes with
  | 0x3D :: rest | 0x40 :: rest => text rest
  | b :: _ => if b == escapeByte then "binary string" else text bytes
  | [] => ""

/-- The function that a source holds. -/
def compile (name : ByteArray) (mode : String) (source : ByteArray) :
    Except Refusal Script.Function :=
  if isBinary source then
    if mode.toList.contains 'b' then .error (.format (binaryName name)) else .error (.kind true mode)
  else if !mode.toList.contains 't' then .error (.kind false mode)
  else (Script.Function.parse source).mapError (.flawed (displayName name))

end Sandbox.Chunk
