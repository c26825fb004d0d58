import Sandbox.Config.Basic
import Sandbox.Session.Setup
import Sandbox.Text.Bytes

/-!
# Local environments

The environment of a session on this machine, as a configuration describes it. Files come from the root
directory and the mounts, scripts at the start from one directory, and the modules of the library from all
files below another one, where the name of a module is the path of its file.
-/

namespace Sandbox.Local

/-- Why there is no local environment. -/
inductive Error
  | missingRoot (path : String)
  | unreadable (path : String) (cause : Disk.Refusal)
  deriving DecidableEq, Repr

/-- The wording of an error. -/
def Error.message : Error → String
  | .missingRoot path => s!"sandbox root does not exist: {path}"
  | .unreadable path cause => s!"failed to read {path}: {cause.message}"

/-- The refusal of the disk behind an error. -/
def Error.cause? : Error → Option Disk.Refusal
  | .missingRoot _ => none
  | .unreadable _ cause => some cause

/-! ## Directories of scripts -/

/-- What the name of a script ends with. -/
def ending : ByteArray := ".lua".toUTF8

/-- A name is that of a script: something stands in front of the ending. -/
def isScript (name : ByteArray) : Bool :=
  name.size > ending.size && name.extract (name.size - ending.size) name.size == ending

/-- The entries of a directory in the order of their names. -/
def sortedEntries (d : Disk) (directory : Nat) : List (ByteArray × Nat) :=
  ((d.entries? directory).getD []).mergeSort fun a b => !bytesBelow b.1.toList a.1.toList

/-- The scripts right in a directory, in the order of their names. A directory that is not there has
none, and a script that is no text is left out. -/
def scripts (w : Surroundings) (directory : String) : List SourceFile :=
  match w.disk.trace w.cwd directory with
  | .error _ => []
  | .ok way =>
    (sortedEntries w.disk (way.headD 0)).filterMap fun (name, _) =>
      if isScript name then
        match (w.disk.findNext way name).map w.disk.data? with
        | .ok (some data) => data.toText.toOption.map (⟨name.toTextLossy, ·⟩)
        | _ => none
      else none

/-- The scripts below a directory with the steps that lead to them, where those of a directory come at
its place among the names. Links are not followed. -/
def scriptsBelow (d : Disk) : Nat → Nat → List (List ByteArray × ByteArray)
  | 0, _ => []
  | fuel + 1, directory =>
    (sortedEntries d directory).flatMap fun (name, number) =>
      match (d.node number).content with
      | .directory _ => (scriptsBelow d fuel number).map fun (steps, data) => (name :: steps, data)
      | .file data => if isScript name then [([name], data)] else []
      | .link _ => []

/-- The text of steps with a mark between them. -/
def joined (mark : String) (steps : List ByteArray) : String :=
  mark.intercalate (steps.map ByteArray.toTextLossy)

/-- The name of the module in a file, given by the steps to it. A name that is only a point adds
nothing to the directory that it is in. -/
def moduleName (steps : List ByteArray) : String :=
  let file := steps.getLastD .empty
  let stem := file.extract 0 (file.size - ending.size)
  let directories := steps.dropLast
  joined "." (if stem == ".".toUTF8 && !directories.isEmpty then directories else directories ++ [stem])

/-- The modules in the files below a directory, by name. A directory that is not there has none. -/
def library (w : Surroundings) (directory : String) :
    Except Error (List (String × SourceFile)) := do
  match w.disk.find w.cwd directory with
  | .error _ => return []
  | .ok number =>
    let modules ← (scriptsBelow w.disk w.disk.nodes.size number).mapM fun (steps, data) => do
      let name := joined "/" steps
      match data.toText with
      | .ok code => return (moduleName steps, (⟨name, code⟩ : SourceFile))
      | .error _ => throw (.unreadable (Config.below directory name) .notText)
    return Named.ofList modules

/-! ## Environments -/

/-- The store of a configuration: the root directory with the mounts in it. -/
def store (w : Surroundings) (c : Config) : Except Error Store := do
  if !w.hasDirectory c.profile.root then throw (.missingRoot c.profile.root)
  let directory (path : String) : Store := .directory (DirectoryStore.root w.cwd path)
  let mounts := c.profile.mounts.map fun (name, m) =>
    (name, if m.isReadOnly then .readOnly (directory m.path) else directory m.path)
  return .router (directory c.profile.root) mounts

/-- The environment of a session, as a configuration describes it. -/
def environment {E : Type} (w : Surroundings) (c : Config) (arguments : List String) :
    Except Error (Environment E) := do
  let store ← store w c
  let preInit := (c.profile.initDirectory.map (scripts w)).getD []
  let library ← match c.profile.libraryDirectory with
    | some directory => library w directory
    | none => pure []
  let settings : SearchPath.Settings := {
    explicit := c.profile.searchPath
    ignoresEnvironment := c.profile.ignoresEnvironment }
  return {
    world := {
      storage := { disk := w.disk, now := w.now }
      store, arguments, library
      environ := Named.ofList w.environ }
    searchPath := settings.path w.environ
    preInit }

end Sandbox.Local
