import Sandbox.Config.Expansion
import Sandbox.Config.File

/-!
# Configurations

A configuration is one profile of a configuration file, with its paths expanded, and what is to be logged.
The root is expanded first; the other paths may refer to it.
-/

namespace Sandbox

/-- A profile with expanded paths, and what is to be logged. -/
structure Config where
  /-- The name of the profile. -/
  name : String
  profile : Config.Profile
  logging : Config.Logging
  deriving DecidableEq, Repr

namespace Config

/-- Why there is no configuration. -/
inductive Error
  | notFound (path : String)
  | unreadable (path : String) (cause : Disk.Refusal)
  | malformed (path : String)
  | unknownProfile (name : String)
  | noProfiles
  | badVersion (version : Nat)
  | badMount (name : String)
  /-- A path cannot be expanded. -/
  | noHome
  deriving DecidableEq, Repr

/-- The version of configuration files that is understood. -/
def supportedVersion : Nat := 1

/-- The wording of an error. -/
def Error.message : Error → String
  | .notFound path => s!"config file not found at {path}"
  | .unreadable path cause => s!"failed to read config file {path}: {cause.message}"
  | .malformed path => s!"failed to parse TOML in {path}"
  | .unknownProfile name => s!"profile '{name}' not found"
  | .noProfiles => "no profiles defined in config"
  | .badVersion version => s!"version {version} is unsupported (expected {supportedVersion})"
  | .badMount name => s!"invalid mount prefix '{name}' (must be one path segment)"
  | .noHome => "home directory not available to expand '~'"

/-- The profile that is meant where neither the file nor the user names one. -/
def standardProfile : String := "default"

/-- The path of a file below another path. -/
def below (base file : String) : String :=
  if base.isEmpty || base.endsWith "/" then base ++ file else base ++ "/" ++ file

/-- The place of the configuration file below the directory of all configuration files. -/
def standardFile : String := "luabox/config.toml"

/-- The path of the configuration file where no other one is given. -/
def standardPath (w : Surroundings) : String :=
  match w.valueOf? "XDG_CONFIG_HOME" with
  | some directory => below directory standardFile
  | none => below (below (w.home?.getD "~") ".config") standardFile

/-- The result of an expansion. -/
def expanded (path : Option String) : Except Error String :=
  match path with
  | some path => .ok path
  | none => .error .noHome

/-- A mount with its path expanded; its name has to be one step of a path. -/
def resolveMount (w : Surroundings) (root : String) (entry : String × Mount) :
    Except Error (String × Mount) := do
  let (name, mount) := entry
  if name.isEmpty || name.contains '/' then throw (.badMount name)
  return (name, { mount with path := ← expanded (Expansion.pathBelow w root mount.path) })

/-- A profile of a file with all paths expanded. -/
def resolve (w : Surroundings) (name : String) (p : Profile) (l : Logging) : Except Error Config := do
  let root ← expanded (Expansion.path w p.root)
  let below (path : String) : Except Error String := expanded (Expansion.pathBelow w root path)
  let initDirectory ← p.initDirectory.mapM below
  let libraryDirectory ← p.libraryDirectory.mapM below
  let mounts ← p.mounts.mapM (resolveMount w root)
  let file ← l.file.mapM below
  return ⟨name, { p with root, initDirectory, libraryDirectory, mounts }, { l with file }⟩

/-- The configuration that a file says. The profile that is asked for wins over that of the file. -/
def ofFile (w : Surroundings) (file : File) (profile : Option String) : Except Error Config := do
  if file.version ≠ supportedVersion then throw (.badVersion file.version)
  if file.profiles.isEmpty then throw .noProfiles
  let name := (profile <|> file.profile).getD standardProfile
  match file.profiles.lookup name with
  | some p => resolve w name p file.logging
  | none => throw (.unknownProfile name)

/-- Reads the configuration file at a path, or at the path where no other one is given. -/
def load (w : Surroundings) (path profile : Option String) : Except Error Config := do
  let path := path.getD (standardPath w)
  if !w.hasPath path then throw (.notFound path)
  let text ← (w.disk.readText w.cwd path).mapError (.unreadable path)
  match File.ofText? text with
  | some file => ofFile w file profile
  | none => throw (.malformed path)

end Config
end Sandbox
