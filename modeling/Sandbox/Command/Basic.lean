import Sandbox.Command.Arguments
import Sandbox.Command.Listing
import Sandbox.Local
import Sandbox.Session.Basic

/-!
# Commands

A command works on a configuration: it shows whether the configuration is sound, runs a script in the
local environment, or lists a directory of its files. It ends with a code, with what it has printed, and,
if it fails, with the chain of what went wrong, the outermost error first.
-/

namespace Sandbox.Command

/-- How a command ends. -/
structure Outcome where
  code : Nat := 0
  output : ByteArray := .empty
  /-- What went wrong, the outermost error first. -/
  chain : List String := []

/-- A part of a command that may fail with a chain of errors. -/
abbrev Attempt := Except (List String)

/-- The version of the program. -/
def version : String := "0.3.0"

/-- What the program says about itself. -/
def description : String := s!"luabox-core v{version} | Lua 5.4 on linux"

/-! ## Logging -/

/-- The threshold of a name, in letters of any case. -/
def thresholdOf? (name : String) : Option Threshold :=
  (Threshold.ofName? name.toLower).filter (· ≠ .off)

/-- The threshold of all that is logged: that of the diagnostics, or that of the file where it admits
more. -/
def thresholdFor (l : Config.Logging) : Threshold :=
  let shown := (thresholdOf? l.level).getD .info
  let filed := (thresholdOf? (l.fileLevel.getD l.level)).getD .debug
  if l.file.isSome && shown.rank < filed.rank then filed else shown

/-- The surroundings once the file of the log has been made. -/
def withLogFile (w : Surroundings) (l : Config.Logging) : Attempt Surroundings :=
  match l.file with
  | none => return w
  | some path =>
    match w.disk.create w.now w.cwd path with
    | .ok disk => return { w with disk }
    | .error refusal => throw [s!"failed to create log file {path}", refusal.message]

/-- The configuration to work on, and the surroundings with the file of the log. -/
def prepare (w : Surroundings) (o : Options) : Attempt (Surroundings × Config) := do
  let c ← (Config.load w o.config o.profile).mapError fun e =>
    [s!"Configuration error: {e.message}\nRun 'luabox doctor' to diagnose."]
  return (← withLogFile w c.logging, c)

/-! ## Actions -/

/-- The mark behind a directory that is not there. -/
def missingMark (w : Surroundings) (path : String) : String :=
  if w.hasDirectory path then "" else "  [missing]"

/-- Where the search path comes from. -/
def searchPathText (p : Config.Profile) : String :=
  match p.searchPath with
  | some path => path
  | none => if p.ignoresEnvironment then "(default)" else "(from LUA_PATH)"

/-- The lines that describe a sound configuration. -/
def soundLines (w : Surroundings) (o : Options) (c : Config) : List String :=
  let p := c.profile
  let directory (name : String) (path : Option String) : List String :=
    path.toList.map fun path => s!"{name}: {path}{missingMark w path}"
  let mount (entry : String × Config.Mount) : String :=
    let (name, m) := entry
    let mode := if m.isReadOnly then "ro" else "rw"
    s!"mount {name}: {m.path} ({mode}){missingMark w m.path}"
  ["OK   luabox doctor", description, s!"path: {o.config.getD (Config.standardPath w)}",
    s!"profile: {c.name}"] ++
    directory "root" (some p.root) ++ directory "init_dir" p.initDirectory ++
    directory "lib_dir" p.libraryDirectory ++ [s!"search_path: {searchPathText p}"] ++
    p.mounts.map mount

/-- The lines that say what is wrong with a configuration. -/
def unsoundLines (w : Surroundings) (o : Options) (e : Config.Error) : List String :=
  ["FAIL luabox doctor", e.message] ++
    if o.config.isSome then [] else [s!"looked for: {Config.standardPath w}"]

/-- Lines as text. -/
def linesText (lines : List String) : ByteArray := (String.join (lines.map (· ++ "\n"))).toUTF8

/-- Shows whether the configuration is sound. -/
def doctor (w : Surroundings) (o : Options) : Outcome :=
  match Config.load w o.config o.profile with
  | .ok c => { output := linesText (soundLines w o c) }
  | .error e => { code := 1, output := linesText (unsoundLines w o e) }

/-- The chain of an error of a local environment. -/
def localChain (e : Local.Error) : List String :=
  e.message :: e.cause?.toList.map Disk.Refusal.message

/-- The chain of an error of a store. -/
def storeChain (e : Store.Error) : List String :=
  e.message :: match e with
    | .disk _ cause => [cause.message]
    | _ => []

/-- The text of a listing of a directory. -/
def list (w : Surroundings) (o : Options) (path : String) : Attempt ByteArray := do
  let (w, c) ← prepare w o
  let store ← (Local.store w c).mapError localChain
  let storage : Storage := { disk := w.disk, now := w.now }
  let entries ← (storage.list store path).mapError fun e => s!"cannot list {path}" :: storeChain e
  return (Listing.render entries).toUTF8

/-- The session that a script runs in. No function is added to those of every session. -/
def start (w : Surroundings) (o : Options) (input : ByteArray) (arguments : List String) :
    Attempt (Session Empty) := do
  let (w, c) ← prepare w o
  let e ← (Local.environment (E := Empty) w c arguments).mapError fun e =>
    "failed to prepare the sandbox environment" :: localChain e
  let world := { e.world with
    input := { rest := input }
    log := { threshold := thresholdFor c.logging } }
  (Session.create nofun { e with world }).mapError fun e =>
    [s!"failed to start the sandbox: {e.message}"]

/-- Runs a script. What it has printed stays printed if it fails. -/
def runScript (w : Surroundings) (o : Options) (input : ByteArray) (script : String)
    (arguments : List String) : Outcome :=
  match start w o input arguments with
  | .error chain => { code := 1, chain }
  | .ok s =>
    let (r, s) := s.runFile script arguments
    let output := s.world.output.written
    match r with
    | .ok _ => { output }
    | .error e => { code := 1, output, chain := [s!"{script}: {e.message}"] }

/-- How to use the program. -/
def usage : String :=
  "Usage: luabox [--config <CONFIG>] [--profile <PROFILE>] <doctor | run | ls>\n"

/-- Does what a command line asks for, with the input that a script may read. -/
def perform (w : Surroundings) (input : ByteArray) (i : Invocation) : Outcome :=
  match i with
  | .version => { output := s!"luabox {version}\n".toUTF8 }
  | .help => { output := usage.toUTF8 }
  | .misuse => { code := 2 }
  | .action o .doctor => doctor w o
  | .action o (.list path) =>
    match list w o path with
    | .ok output => { output }
    | .error chain => { code := 1, chain }
  | .action o (.run script arguments) => runScript w o input script arguments

end Sandbox.Command
