import Sandbox.Store.Basic

/-!
# Files in memory

A memory store maps keys to files. A key is the list of the names on a path; directories exist where
some key leads through them. A path with `..` has no key.
-/

namespace Sandbox

/-- A file in memory. -/
structure MemoryFile where
  data : ByteArray
  modified : Timestamp
  deriving DecidableEq

/-- A store of files in memory. -/
structure MemoryStore where
  /-- The files by key; no key occurs twice. -/
  files : List (List String × MemoryFile) := []

namespace MemoryStore

/-- The key of a path: its names, if none of them is `..`. -/
def key (path : String) : Except Store.Error (List String) :=
  let names := Path.stepsOf (Path.pieces path)
  if names.contains ".." then .error (.invalidPath path) else .ok names

/-- The file with this key. -/
def get? (s : MemoryStore) (key : List String) : Option MemoryFile := s.files.lookup key

/-- Sets the file with this key. -/
def set (s : MemoryStore) (key : List String) (file : MemoryFile) : MemoryStore :=
  if (s.get? key).isSome then
    ⟨s.files.map fun e => if e.1 = key then (key, file) else e⟩
  else ⟨s.files ++ [(key, file)]⟩

/-- Takes the file with this key away. -/
def erase (s : MemoryStore) (key : List String) : MemoryStore := ⟨s.files.filter (·.1 ≠ key)⟩

/-- Adds or replaces a file. -/
def insert (s : MemoryStore) (now : Timestamp) (path : String) (data : ByteArray) :
    Except Store.Error MemoryStore := do
  let key ← key path
  if key.isEmpty then throw (.invalidPath path)
  return s.set key ⟨data, now⟩

/-- The bytes at a path. -/
def read (s : MemoryStore) (path : String) : Except Store.Error ByteArray := do
  match s.get? (← key path) with
  | some file => return file.data
  | none => throw (.notFound path)

/-- Takes the file at a path away. -/
def delete (s : MemoryStore) (path : String) : Except Store.Error MemoryStore := do
  let key ← key path
  if (s.get? key).isSome then return s.erase key else throw (.notFound path)

/-- What a key means for the listing of a directory: a file there, or a directory on the way. -/
def childOf (directory : List String) (key : List String) : Option (String × Bool) :=
  if directory.isPrefixOf key then
    match key.drop directory.length with
    | [] => none
    | [name] => some (name, false)
    | name :: _ => some (name, true)
  else none

/-- The entries of the files in a directory. -/
def fileEntries (s : MemoryStore) (directory : List String) : List Entry :=
  s.files.filterMap fun (key, file) =>
    match childOf directory key with
    | some (name, false) =>
      some (.of name ("/".intercalate key) false file.modified file.data.size)
    | _ => none

/-- The names of the directories in a directory. -/
def directoryNames (s : MemoryStore) (directory : List String) : List String :=
  (s.files.filterMap fun (key, _) =>
    match childOf directory key with
    | some (name, true) => some name
    | _ => none).eraseDups

/-- The entries in a directory, in the order of their names, a file before a directory of the same
name. Only the root may be empty. -/
def list (s : MemoryStore) (path : String) : Except Store.Error (List Entry) := do
  let directory ← key path
  let files := s.fileEntries directory
  let directories := (s.directoryNames directory).map fun name =>
    Entry.of name ("/".intercalate (directory ++ [name])) true .epoch 0
  if files.isEmpty && directories.isEmpty && !directory.isEmpty then throw (.notFound path)
  return Entry.sort (files ++ directories)

end MemoryStore
end Sandbox
