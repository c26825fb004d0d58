import Sandbox.Store.Basic

/-!
# A directory of the disk as a store

Paths are joined to the root of the store and cleaned before the disk sees them; what would leave the
root is refused. Links of the disk are followed wherever they lead.
-/

namespace Sandbox.DirectoryStore

/-- The clean, absolute root for the text of a root. -/
def root (cwd : Path) (text : String) : Path := (cwd.join (.ofText text)).clean

/-- The clean path on the disk for a path of the store. -/
def resolve (root : Path) (path : String) : Except Store.Error Path :=
  let relative : Path := ⟨false, Path.stepsOf (Path.pieces path)⟩
  let full := (root.join relative).clean
  if full.isWithin root then .ok full else .error (.invalidPath path)

/-- Does something at the place on the disk that a path leads to. -/
def atPath {α : Type} (root : Path) (path : String) (act : String → Except Disk.Refusal α) :
    Except Store.Error α := do
  match act (← resolve root path).toText with
  | .ok a => return a
  | .error cause => throw (.ofRefusal path cause)

/-- The file or directory that is opened for reading. -/
def openRead (d : Disk) (root : Path) (path : String) : Except Store.Error Nat :=
  atPath root path fun p => d.find ⟨true, []⟩ p

/-- The file at a place on the disk, which may be written to. -/
def writable (d : Disk) (place : String) : Except Disk.Refusal Nat := do
  let number ← d.find ⟨true, []⟩ place
  if (d.entries? number).isSome then throw .isDirectory
  return number

/-- The file that is opened for writing. -/
def openWrite (d : Disk) (root : Path) (path : String) : Except Store.Error Nat :=
  atPath root path (writable d)

/-- The number of bytes that the disk tells for a directory. -/
def directorySize : Nat := 4096

/-- The entry of a node. -/
def entryOf (base : Path) (name : ByteArray) (n : Disk.Node) : Entry :=
  let name := name.toTextLossy
  let url := (base.join (.ofText name)).toText
  match n.content with
  | .file data => .of name url false n.modified data.size
  | .directory _ => .of name url true n.modified directorySize
  | .link target => .of name url false n.modified target.utf8ByteSize

/-- The entries of the directory at a place on the disk. -/
def entriesAt (d : Disk) (place : String) : Except Disk.Refusal (List (ByteArray × Nat)) := do
  match d.entries? (← d.find ⟨true, []⟩ place) with
  | some entries => return entries
  | none => throw .notDirectory

/-- The entries of some nodes of the disk, in the order of their names. -/
def entriesOf (d : Disk) (base : Path) (entries : List (ByteArray × Nat)) : List Entry :=
  Entry.sort (entries.map fun (name, number) => entryOf base name (d.node number))

/-- The entries in a directory, in the order of their names. -/
def list (d : Disk) (root : Path) (path : String) : Except Store.Error (List Entry) := do
  let full ← resolve root path
  let entries ← atPath root path (entriesAt d)
  return entriesOf d ⟨false, (full.below? root).getD []⟩ entries

/-- Takes the file at a path away; the root stays. -/
def delete (d : Disk) (now : Timestamp) (root : Path) (path : String) : Except Store.Error Disk := do
  if (← resolve root path) = root then throw (.invalidPath path)
  atPath root path fun p => d.remove now ⟨true, []⟩ p

end Sandbox.DirectoryStore
