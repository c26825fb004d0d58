import Sandbox.Path
import Sandbox.Text.Bytes
import Sandbox.Text.Utf8

/-!
# A disk

A tree of directories, files and symbolic links. Nodes are numbered and directories refer to them by
number, so a file that has been opened can still be read and written after its name is gone. Names
are byte sequences.
-/

namespace Sandbox

/-- A moment: seconds since the epoch and nanoseconds. -/
structure Timestamp where
  seconds : Int
  nanos : Nat
  deriving DecidableEq, Repr, Inhabited

/-- The start of time. -/
def Timestamp.epoch : Timestamp := ⟨0, 0⟩

namespace Disk

/-- Why the disk refuses. -/
inductive Refusal
  | missing | notDirectory | isDirectory | nameTooLong | tooManyLinks | nulInName | notText
  deriving DecidableEq, Repr

/-- The wording of a refusal. -/
def Refusal.message : Refusal → String
  | .missing => "No such file or directory (os error 2)"
  | .notDirectory => "Not a directory (os error 20)"
  | .isDirectory => "Is a directory (os error 21)"
  | .nameTooLong => "File name too long (os error 36)"
  | .tooManyLinks => "Too many levels of symbolic links (os error 40)"
  | .nulInName => "file name contained an unexpected NUL byte"
  | .notText => "stream did not contain valid UTF-8"

/-- What a node holds. -/
inductive Content
  | file (data : ByteArray)
  /-- Names and the numbers of the nodes that they stand for. -/
  | directory (entries : List (ByteArray × Nat))
  | link (target : String)

/-- A node of the disk. -/
structure Node where
  content : Content
  modified : Timestamp

instance : Inhabited Node := ⟨⟨.file .empty, .epoch⟩⟩

end Disk

/-- A disk as its nodes; the first one is the root. -/
structure Disk where
  nodes : Array Disk.Node

namespace Disk

/-- A disk without files. -/
def empty : Disk := ⟨#[⟨.directory [], .epoch⟩]⟩

/-- The node with this number. -/
def node (d : Disk) (number : Nat) : Node := d.nodes.getD number default

/-- The entries of a directory. -/
def entries? (d : Disk) (number : Nat) : Option (List (ByteArray × Nat)) :=
  match (d.node number).content with
  | .directory entries => some entries
  | _ => none

/-- The bytes of a file. -/
def data? (d : Disk) (number : Nat) : Option ByteArray :=
  match (d.node number).content with
  | .file data => some data
  | _ => none

/-- Replaces a node. -/
def set (d : Disk) (number : Nat) (n : Node) : Disk := ⟨d.nodes.setIfInBounds number n⟩

/-! ## Finding nodes -/

/-- The most links that are followed on the way to a node. -/
def linkLimit : Nat := 40

/-- The longest name, in bytes. -/
def nameLimit : Nat := 255

/-- The longest path, in bytes. -/
def pathLimit : Nat := 4095

/-- The node that a name stands for in a directory. -/
def child (d : Disk) (directory : Nat) (name : ByteArray) : Except Refusal Nat :=
  match d.entries? directory with
  | none => .error .notDirectory
  | some entries =>
    if name.size > nameLimit then .error .nameTooLong
    else match entries.find? (·.1 = name) with
      | some (_, number) => .ok number
      | none => .error .missing

/-- The step that stays where it is, which has to be a directory. -/
def stay : ByteArray := ".".toUTF8

/-- The step to the directory above. -/
def up : ByteArray := "..".toUTF8

/-- The steps of a text. Behind a slash at the end there has to be a directory. -/
def stepsOfText (text : String) : List ByteArray :=
  let steps := (Path.ofText text).steps.map String.toUTF8
  if text.endsWith "/" || text.endsWith "/." then steps ++ [stay] else steps

/-- Goes from a directory, given with the directories above it, along some steps. A link at the end
is followed if `follow` is set. The answer is the way to the node, the node first. -/
def walk (d : Disk) (follow : Bool) : Nat → Nat → List Nat → List ByteArray → Except Refusal (List Nat)
  | 0, _, _, _ => .error .tooManyLinks
  | _ + 1, _, way, [] => .ok way
  | fuel + 1, links, way, step :: rest => do
    let here := way.headD 0
    if (d.entries? here).isNone then throw .notDirectory
    if step = stay then walk d follow fuel links way rest
    else if step = up then
      walk d follow fuel links (if way.length ≤ 1 then way else way.drop 1) rest
    else
      let next ← d.child here step
      match (d.node next).content with
      | .link target =>
        if rest.isEmpty && !follow then return next :: way
        if links = 0 then throw .tooManyLinks
        let way := if target.startsWith "/" then [0] else way
        walk d follow fuel (links - 1) way (stepsOfText target ++ rest)
      | _ => walk d follow fuel links (next :: way) rest

/-- The most steps on the way to a node. -/
def stepLimit : Nat := pathLimit * (linkLimit + 1)

/-- The way to the node at a path, seen from a directory. A path that ends with a slash leads to a
directory. -/
def trace (d : Disk) (cwd : Path) (path : String) (follow : Bool := true) :
    Except Refusal (List Nat) := do
  if path.contains '\x00' then throw .nulInName
  if path.isEmpty then throw .missing
  if path.utf8ByteSize > pathLimit then throw .nameTooLong
  let start := if path.startsWith "/" then [] else cwd.steps.map String.toUTF8
  d.walk follow stepLimit linkLimit [0] (start ++ stepsOfText path)

/-- The node at a path. -/
def find (d : Disk) (cwd : Path) (path : String) (follow : Bool := true) : Except Refusal Nat :=
  return (← d.trace cwd path follow).headD 0

/-- The node that a name leads to from the directory at the end of a way. -/
def findNext (d : Disk) (way : List Nat) (name : ByteArray) : Except Refusal Nat :=
  return (← d.walk true stepLimit linkLimit way [name]).headD 0

/-- A path leads to a directory. -/
def hasDirectory (d : Disk) (cwd : Path) (path : String) : Bool :=
  match d.find cwd path with
  | .ok number => (d.entries? number).isSome
  | .error _ => false

/-- The steps of a path of bytes. -/
def steps (path : ByteArray) : List ByteArray :=
  ((path.toList.splitOn 0x2F).map fun s => ByteArray.mk s.toArray).filter fun s =>
    !s.isEmpty && s != ".".toUTF8

/-- The bytes of the file at a path. -/
def readFile (d : Disk) (cwd : Path) (path : String) : Except Refusal ByteArray := do
  match d.data? (← d.find cwd path) with
  | some data => return data
  | none => throw .isDirectory

/-- The text of the file at a path. -/
def readText (d : Disk) (cwd : Path) (path : String) : Except Refusal String := do
  match (← d.readFile cwd path).toText with
  | .ok text => return text
  | .error _ => throw .notText

/-! ## Changing the disk -/

/-- Data with some bytes written over it from a position on; a gap is filled with zeros. -/
def overwrite (data : ByteArray) (position : Nat) (bytes : ByteArray) : ByteArray :=
  let data := (List.range (position - data.size)).foldl (fun d _ => d.push 0) data
  data.extract 0 position ++ bytes ++ data.extract (position + bytes.size) data.size

/-- Writes into the file with this number. -/
def writeAt (d : Disk) (now : Timestamp) (number position : Nat) (bytes : ByteArray) : Disk :=
  match d.data? number with
  | some data => d.set number ⟨.file (overwrite data position bytes), now⟩
  | none => d

/-- Takes the name at the end of a path away, unless it belongs to a directory. -/
def remove (d : Disk) (now : Timestamp) (cwd : Path) (path : String) : Except Refusal Disk := do
  if path.contains '\x00' then throw .nulInName
  if path.utf8ByteSize > pathLimit then throw .nameTooLong
  let steps := (cwd.join (.ofText path)).steps.map String.toUTF8
  let way ← d.walk false stepLimit linkLimit [0] steps
  match way, steps.getLast? with
  | number :: parent :: _, some name =>
    if (d.entries? number).isSome then throw .isDirectory
    let entries := (d.entries? parent).getD []
    return d.set parent ⟨.directory (entries.filter (·.1 ≠ name)), now⟩
  | _, _ => throw .isDirectory

/-- Adds a node under a name that is free. -/
def add (d : Disk) (now : Timestamp) (directory : Nat) (name : ByteArray) (n : Node) : Disk × Nat :=
  let number := d.nodes.size
  let entries := (d.entries? directory).getD []
  let d : Disk := ⟨d.nodes.push n⟩
  (d.set directory ⟨.directory (entries ++ [(name, number)]), now⟩, number)

/-- Empties the file at a path, or makes it in a directory that is there. -/
def create (d : Disk) (now : Timestamp) (cwd : Path) (path : String) : Except Refusal Disk := do
  let steps := (cwd.join (.ofText path)).steps.map String.toUTF8
  match d.find cwd path with
  | .ok number =>
    if (d.entries? number).isSome then throw .isDirectory
    return d.set number ⟨.file .empty, now⟩
  | .error .missing =>
    match path.isEmpty, steps.getLast? with
    | false, some name =>
      let way ← d.walk true stepLimit linkLimit [0] steps.dropLast
      if path.endsWith "/" then throw .isDirectory
      match d.child (way.headD 0) name with
      | .ok _ => return d
      | .error .missing => return (d.add now (way.headD 0) name ⟨.file .empty, now⟩).1
      | .error refusal => throw refusal
    | _, _ => throw .missing
  | .error refusal => throw refusal

/-- The directory at some steps, made where it is not there. -/
def makeDirectory (d : Disk) (now : Timestamp) (here : Nat) : List ByteArray → Disk × Nat
  | [] => (d, here)
  | step :: rest =>
    match d.child here step with
    | .ok number => makeDirectory d now number rest
    | .error _ =>
      let (d, number) := d.add now here step ⟨.directory [], now⟩
      makeDirectory d now number rest

/-- Puts a node at some steps and makes the directories above it. -/
def put (d : Disk) (now : Timestamp) (steps : List ByteArray) (n : Node) : Disk :=
  match steps.reverse with
  | [] => d
  | name :: above =>
    let (d, directory) := d.makeDirectory now 0 above.reverse
    match d.child directory name with
    | .ok number => d.set number n
    | .error _ => (d.add now directory name n).1

end Disk
end Sandbox
