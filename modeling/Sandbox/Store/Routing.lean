import Sandbox.Store.Directory
import Sandbox.Store.Memory
import Sandbox.Text.Quoted

/-!
# Stores and the ways through them

A store is a memory, a directory of the disk, another store that may only be read, or a router that
sends a path to one of several stores by its first step. `Store.locate` finds the memory or directory
that a path ends up in, and tells whether a read-only store stands on the way.
-/

namespace Sandbox

/-- A store. -/
inductive Store
  /-- The memory with this number. -/
  | memory (id : Nat)
  /-- A directory of the disk, by its clean and absolute path. -/
  | directory (root : Path)
  | readOnly (inner : Store)
  /-- Stores by the first step of a path, in the order of these steps, and the one for all else. -/
  | router (base : Store) (mounts : List (String × Store))
  deriving Inhabited

namespace Store

/-- What holds files. -/
inductive Backend
  | memory (id : Nat)
  | directory (root : Path)
  deriving DecidableEq, Repr

/-- Where a path ends up. -/
structure Target where
  backend : Backend
  /-- The path as the backend sees it. -/
  path : String
  /-- A read-only store stands on the way. -/
  isReadOnly : Bool
  deriving DecidableEq, Repr

/-- The text before the first slash and the text behind it. -/
def splitStep (path : String) : Option (String × String) :=
  match path.toList.span (· ≠ '/') with
  | (_, []) => none
  | (step, _ :: rest) => some (String.ofList step, String.ofList rest)

/-- The path asks a router for all that it holds. -/
def isTop (path : String) : Bool := path == "" || path == "/"

/-- The mount that takes a path, and the path that it sees. -/
def route (mounts : List (String × Store)) (path : String) : Option (String × String) :=
  match splitStep path with
  | some (step, rest) => if (mounts.any (·.1 == step)) then some (step, rest) else none
  | none => none

mutual
/-- Where a path ends up. -/
def locate : Store → String → Target
  | .memory id, path => ⟨.memory id, path, false⟩
  | .directory root, path => ⟨.directory root, path, false⟩
  | .readOnly inner, path => { locate inner path with isReadOnly := true }
  | .router base mounts, path =>
    match splitStep path with
    | some (step, rest) => (locateMount mounts step rest).getD (locate base path)
    | none => locate base path

/-- Where a path ends up in the store that is mounted at a step. -/
def locateMount : List (String × Store) → String → String → Option Target
  | [], _, _ => none
  | (name, store) :: more, step, rest =>
    if name = step then some (locate store rest) else locateMount more step rest
end

/-- The text that describes a router in diagnostics. -/
def describeRouter (mounts : List (String × Store)) : String :=
  "Vfs \x7b mounts: [" ++ ", ".intercalate (mounts.map (·.1.quoted)) ++ "] \x7d"

end Store

/-- The files behind all stores. -/
structure Storage where
  memories : Array MemoryStore := #[]
  disk : Disk := .empty
  /-- The time that is stamped on what changes now. -/
  now : Timestamp := .epoch

namespace Storage

/-- The memory with this number. -/
def memory (s : Storage) (id : Nat) : MemoryStore := s.memories.getD id {}

/-- Replaces the memory with this number. -/
def setMemory (s : Storage) (id : Nat) (m : MemoryStore) : Storage :=
  { s with memories := s.memories.setIfInBounds id m }

/-! ## Readers -/

/-- A file or directory that has been opened for reading. -/
inductive Reader
  /-- The bytes of a memory file as they were, and how many of them have been read. -/
  | bytes (data : ByteArray) (position : Nat)
  /-- A node of the disk and the place in it. -/
  | node (number position : Nat)

/-- Opens what a path of a store leads to for reading. -/
def openRead (s : Storage) (store : Store) (path : String) : Except Store.Error Reader :=
  let target := store.locate path
  match target.backend with
  | .memory id => return .bytes (← (s.memory id).read target.path) 0
  | .directory root => return .node (← DirectoryStore.openRead s.disk root target.path) 0

/-- All that a reader sees. -/
def readerData (s : Storage) : Reader → Except Disk.Refusal ByteArray
  | .bytes data _ => return data
  | .node number _ =>
    match s.disk.data? number with
    | some data => return data
    | none => throw .isDirectory

/-- Reads at most `count` bytes. -/
def readSome (s : Storage) (r : Reader) (count : Nat) : Except Disk.Refusal (ByteArray × Reader) := do
  let data ← s.readerData r
  match r with
  | .bytes d position =>
    let chunk := data.extract position (position + count)
    return (chunk, .bytes d (position + chunk.size))
  | .node number position =>
    let chunk := data.extract position (position + count)
    return (chunk, .node number (position + chunk.size))

/-- Reads all bytes from the start. -/
def readAll (s : Storage) (r : Reader) : Except Disk.Refusal ByteArray := s.readerData r

/-- Whether a path of a store can be opened for reading. -/
def opens (s : Storage) (store : Store) (path : String) : Bool :=
  match s.openRead store path with
  | .ok _ => true
  | .error _ => false

/-! ## Writers -/

/-- A file that has been opened for writing. -/
inductive Writer
  /-- A memory file: its bytes as they were, with what has been written over them. -/
  | bytes (id : Nat) (key : List String) (buffer : ByteArray) (position : Nat)
  /-- A node of the disk and the place in it. -/
  | node (number position : Nat)

/-- Opens the file that a path of a store leads to for writing. The file has to be there, and it
keeps its bytes. -/
def openWrite (s : Storage) (store : Store) (path : String) : Except Store.Error Writer :=
  let target := store.locate path
  if target.isReadOnly then .error .readOnly
  else match target.backend with
    | .memory id => do
      let key ← MemoryStore.key target.path
      if key.isEmpty then throw (.invalidPath target.path)
      match (s.memory id).get? key with
      | some file => return .bytes id key file.data 0
      | none => throw (.notFound target.path)
    | .directory root => return .node (← DirectoryStore.openWrite s.disk root target.path) 0

/-- Writes bytes at the place of the writer. A memory file changes when the writer commits. -/
def write (s : Storage) (w : Writer) (bytes : ByteArray) : Storage × Writer :=
  match w with
  | .bytes id key buffer position =>
    (s, .bytes id key (Disk.overwrite buffer position bytes) (position + bytes.size))
  | .node number position =>
    if bytes.isEmpty then (s, w)
    else ({ s with disk := s.disk.writeAt s.now number position bytes },
      .node number (position + bytes.size))

/-- Commits what has been written. -/
def commit (s : Storage) (w : Writer) : Storage :=
  match w with
  | .bytes id key buffer _ => s.setMemory id ((s.memory id).set key ⟨buffer, s.now⟩)
  | .node .. => s

/-! ## Whole stores -/

/-- Adds or replaces a file of a memory. -/
def insert (s : Storage) (id : Nat) (path : String) (data : ByteArray) : Except Store.Error Storage :=
  return s.setMemory id (← (s.memory id).insert s.now path data)

/-- Takes the file at a path of a store away. -/
def delete (s : Storage) (store : Store) (path : String) : Except Store.Error Storage :=
  let target := store.locate path
  if target.isReadOnly then .error .readOnly
  else match target.backend with
    | .memory id => return s.setMemory id (← (s.memory id).delete target.path)
    | .directory root =>
      return { s with disk := ← DirectoryStore.delete s.disk s.now root target.path }

/-- The entry for a place where a store is mounted. -/
def mountEntry (name : String) : Entry :=
  ⟨name, name ++ "/", true, .epoch, 0, nameFingerprint name⟩

mutual
/-- The entries in a directory of a store. The top of a router holds the entries of its base that no
mount hides, and then the mounts. -/
def list (s : Storage) : Store → String → Except Store.Error (List Entry)
  | .memory id, path => (s.memory id).list path
  | .directory root, path => DirectoryStore.list s.disk root path
  | .readOnly inner, path => list s inner path
  | .router base mounts, path => do
    if Store.isTop path then
      let entries ← list s base "/"
      return entries.filter (fun e => !mounts.any (·.1 == e.name)) ++ mounts.map (mountEntry ·.1)
    else
      match Store.splitStep path with
      | some (step, rest) => (listMount s mounts step rest).getD (list s base path)
      | none => list s base path

/-- The entries in a directory of the store that is mounted at a step. -/
def listMount (s : Storage) :
    List (String × Store) → String → String → Option (Except Store.Error (List Entry))
  | [], _, _ => none
  | (name, store) :: more, step, rest =>
    if name = step then some (list s store rest) else listMount s more step rest
end

end Storage
end Sandbox
