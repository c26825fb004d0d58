import Sandbox.Disk
import Sandbox.Digest.SipHash

/-!
# Entries of listings

What a store tells about a file or a directory. The fingerprint of an entry is a hash of its time and
size; that of a place where another store is mounted is a hash of its name.
-/

namespace Sandbox

/-- A word as sixteen digits in base sixteen. -/
def fingerprintText (word : UInt64) : String :=
  let digits := Nat.toDigits 16 word.toNat
  String.ofList (List.replicate (16 - digits.length) '0' ++ digits)

/-- The fingerprint of an entry. -/
def entryFingerprint (modified : Timestamp) (size : UInt64) : String :=
  fingerprintText <| SipHash.hash <|
    SipHash.littleEndian 8 (Int64.ofInt modified.seconds).toUInt64 ++
      SipHash.littleEndian 4 modified.nanos.toUInt64 ++ SipHash.littleEndian 8 size

/-- The fingerprint of a name. -/
def nameFingerprint (name : String) : String :=
  fingerprintText (SipHash.hash (name.toUTF8.toList ++ [0xff]))

/-- An entry of a listing. -/
structure Entry where
  name : String
  /-- The path of the entry in the store that lists it. -/
  url : String
  isDirectory : Bool
  modified : Timestamp
  size : Nat
  fingerprint : String
  deriving DecidableEq, Repr

/-- The entry of a file or a directory. -/
def Entry.of (name url : String) (isDirectory : Bool) (modified : Timestamp) (size : Nat) : Entry :=
  ⟨name, url, isDirectory, modified, size, entryFingerprint modified size.toUInt64⟩

/-- Entries in the order of their names. -/
def Entry.sort (entries : List Entry) : List Entry :=
  entries.mergeSort fun a b => !(b.name < a.name)

end Sandbox
