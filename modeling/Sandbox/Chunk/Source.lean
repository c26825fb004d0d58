/-!
# Source texts

What happens to a source text before it is compiled. A byte order mark is dropped, and a first line
that begins with `#` is emptied, so that the lines keep their numbers.
-/

namespace Sandbox.Chunk

/-- The mark that may stand in front of a text in UTF-8. -/
def byteOrderMark : List UInt8 := [0xEF, 0xBB, 0xBF]

/-- The bytes without a byte order mark at their start. -/
def withoutMark (source : List UInt8) : List UInt8 :=
  if byteOrderMark.isPrefixOf source then source.drop 3 else source

/-- The bytes behind the first line. -/
def withoutFirstLine (source : List UInt8) : List UInt8 := (source.dropWhile (· ≠ 0x0A)).drop 1

/-- The bytes with an emptied first line in place of one that begins with `#`. -/
def withoutPreambleLine (source : List UInt8) : List UInt8 :=
  if source.head? = some 0x23 then 0x0A :: withoutFirstLine source else source

/-- The source that the compiler sees. -/
def stripPreamble (source : ByteArray) : ByteArray :=
  -- most sources have neither, and are not copied
  if source.size > 0 && (source.get! 0 == 0xEF || source.get! 0 == 0x23) then
    ⟨(withoutPreambleLine (withoutMark source.toList)).toArray⟩
  else source

/-- The modes in which a file may be loaded; all of them mean text. -/
def modes : List String := ["", "t", "bt", "text"]

/-- A mode is one of those in which a file may be loaded. -/
def acceptsMode (mode : Option String) : Bool :=
  match mode with
  | none => true
  | some m => modes.contains m

end Sandbox.Chunk
