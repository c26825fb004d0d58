import Sandbox.Command.Basic

/-!
# The program

The outer layer: it takes a picture of the directories that a configuration names, lets the command work on
the picture, and prints how the command ends.
-/

namespace Sandbox.Program

/-- A picture of a part of the disk, with the paths that have been looked at. -/
structure Picture where
  disk : Disk := .empty
  seen : List String := []

/-- The variables of the process. -/
def environ : IO (List (String × String)) := do
  let bytes ← IO.FS.readBinFile "/proc/self/environ"
  return (bytes.toTextLossy.splitOn "\x00").filterMap fun entry =>
    match entry.splitOn "=" with
    | name :: rest@(_ :: _) => some (name, "=".intercalate rest)
    | _ => none

/-- Changes the time of the node at a path. -/
def stamp (d : Disk) (path : String) (modified : Timestamp) : Disk :=
  match d.find ⟨true, []⟩ path with
  | .ok number => d.set number { d.node number with modified }
  | .error _ => d

/-- Takes what is at an absolute path into a picture, with all that is below it. -/
partial def capture (p : Picture) (path : String) : IO Picture := do
  if p.seen.contains path then return p
  let p := { p with seen := path :: p.seen }
  let here := (← IO.currentDir) / path
  try
    let found ← here.symlinkMetadata
    let modified : Timestamp := ⟨found.modified.sec, found.modified.nsec.toNat⟩
    let steps := Disk.steps path.toUTF8
    let put (content : Disk.Content) : Picture :=
      { p with disk := p.disk.put modified steps ⟨content, modified⟩ }
    match found.type with
    | .dir =>
      let mut p := { p with disk := (p.disk.makeDirectory modified 0 steps).1 }
      for entry in ← here.readDir do
        p ← capture p (Config.below path entry.fileName)
      return { p with disk := stamp p.disk path modified }
    | .file => return put (.file (← IO.FS.readBinFile here))
    | .symlink =>
      let target := (← IO.FS.realPath here).toString
      capture (put (.link target)) target
    | .other => return p
  catch _ => return p

/-- Takes the directory at a path into a picture, if it is one, without what it holds. -/
def captureDirectory (p : Picture) (path : Path) : IO Picture := do
  let here := (← IO.currentDir) / path.toText
  if ← here.isDir then
    return { p with disk := (p.disk.makeDirectory .epoch 0 (path.steps.map String.toUTF8)).1 }
  else return p

/-- Empties the file of the log, or makes it. -/
def emptyLogFile (path : Path) : IO Unit := do
  try IO.FS.writeFile path.toText "" catch _ => pure ()

/-- All that is still to be read from a stream. -/
partial def readAll (stream : IO.FS.Stream) (read : ByteArray) : IO ByteArray := do
  let chunk ← stream.read 65536
  if chunk.isEmpty then return read else readAll stream (read ++ chunk)

/-- The surroundings of the process, as far as a command with these options looks at them. -/
def surroundings (o : Command.Options) : IO Surroundings := do
  let w : Surroundings := {
    disk := .empty
    cwd := .ofText (← IO.currentDir).toString
    environ := ← environ }
  let absolute (path : String) : Path := w.cwd.join (.ofText path)
  let p ← capture {} (absolute (o.config.getD (Config.standardPath w))).toText
  match Config.load { w with disk := p.disk } o.config o.profile with
  | .error _ => return { w with disk := p.disk }
  | .ok c =>
    let paths := c.profile.root :: c.profile.initDirectory.toList ++
      c.profile.libraryDirectory.toList ++ c.profile.mounts.map (·.2.path)
    let mut p := p
    for file in c.logging.file.toList do
      let file := absolute file
      p ← captureDirectory p { file with steps := file.steps.dropLast }
      p ← captureDirectory p file
      emptyLogFile file
    for path in paths do p ← capture p (absolute path).toText
    return { w with disk := p.disk }

/-- Prints how a command ends. -/
def report (r : Command.Outcome) : IO UInt32 := do
  let output ← IO.getStdout
  output.write r.output
  output.flush
  for (entry, number) in r.chain.zipIdx do
    IO.eprintln s!"   {number}: {entry}"
  return r.code.toUInt32

end Sandbox.Program

/-- Does what the command line asks for. -/
def main (arguments : List String) : IO UInt32 := do
  let invocation := Sandbox.Command.Invocation.ofArguments arguments
  match invocation with
  | .action o action =>
    let w ← Sandbox.Program.surroundings o
    let input ← match action with
      | .run .. => Sandbox.Program.readAll (← IO.getStdin) .empty
      | _ => pure .empty
    Sandbox.Program.report (Sandbox.Command.perform w input invocation)
  | _ => Sandbox.Program.report (Sandbox.Command.perform { disk := .empty } .empty invocation)
