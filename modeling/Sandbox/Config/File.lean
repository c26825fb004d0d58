import Sandbox.Named
import Sandbox.Toml.Document

/-!
# Configuration files

A configuration file is a TOML document with a version, profiles by name, and what is to be logged.
Fields without a meaning are ignored. A part of the file may also be written as a list, which then has
its fields in their order and leaves out only fields at the end that have a value by default.
-/

namespace Sandbox.Config

/-- Another directory that is made part of the files of a profile. -/
structure Mount where
  path : String
  isReadOnly : Bool := false
  deriving DecidableEq, Repr

/-- A choice of directories. -/
structure Profile where
  /-- The directory that files come from. -/
  root : String
  /-- The directory of the scripts that run before all others. -/
  initDirectory : Option String := none
  /-- The directory of the modules of the library. -/
  libraryDirectory : Option String := none
  searchPath : Option String := none
  ignoresEnvironment : Bool := false
  /-- Mounts in the order of their names. -/
  mounts : List (String × Mount) := []
  deriving DecidableEq, Repr

/-- What is to be logged. -/
structure Logging where
  level : String := "info"
  fileLevel : Option String := none
  file : Option String := none
  deriving DecidableEq, Repr

/-- What a configuration file says. -/
structure File where
  version : Nat
  /-- The profile that is meant where no other one is asked for. -/
  profile : Option String
  profiles : List (String × Profile)
  logging : Logging

open Toml

/-! ## Reading values -/

/-- A value that has to be a text. -/
def readText : Value → Option String
  | .text s => some s
  | _ => none

/-- A value that has to be a truth value. -/
def readBool : Value → Option Bool
  | .bool b => some b
  | _ => none

/-- A value that has to be a natural number of 32 bits. -/
def readWord : Value → Option Nat
  | .int n => if 0 ≤ n && n < 2 ^ 32 then some n.toNat else none
  | _ => none

/-- A value that has to be a table, whose fields are all of one kind. -/
def readTable {α : Type} (read : Value → Option α) : Value → Option (List (String × α))
  | .table _ fields => fields.mapM fun (name, v) => do return (name, ← read v)
  | _ => none

/-- The fields of a part of the file, by their names or by their places. -/
inductive Parts
  | named (fields : Fields)
  | placed (items : List Value)

/-- The fields of a value that has to be a part of the file. -/
def Parts.ofValue? : Value → Option Parts
  | .table _ fields => some (.named fields)
  | .list _ items => some (.placed items)
  | _ => none

namespace Parts

variable {α : Type}

/-- The value of a field, if it is there. -/
def get? (p : Parts) (place : Nat) (name : String) : Option Value :=
  match p with
  | .named fields => fields.lookup name
  | .placed items => items[place]?

/-- A field that has to be there. -/
def required (p : Parts) (place : Nat) (name : String) (read : Value → Option α) : Option α :=
  (p.get? place name).bind read

/-- A field that a table may leave out. -/
def optional (p : Parts) (place : Nat) (name : String) (read : Value → Option α) :
    Option (Option α) :=
  match p, p.get? place name with
  | _, some v => (read v).map some
  | .named _, none => some none
  | .placed _, none => none

/-- A field with a value by default. -/
def defaulted (p : Parts) (place : Nat) (name : String) (standard : α) (read : Value → Option α) :
    Option α :=
  match p.get? place name with
  | some v => read v
  | none => some standard

end Parts

/-! ## Reading files -/

/-- A value that has to be a mount. -/
def readMount (v : Value) : Option Mount := do
  let p ← Parts.ofValue? v
  return {
    path := ← p.required 0 "path" readText
    isReadOnly := ← p.defaulted 1 "read_only" false readBool }

/-- A value that has to be a profile. -/
def readProfile (v : Value) : Option Profile := do
  let p ← Parts.ofValue? v
  return {
    root := ← p.required 0 "root" readText
    initDirectory := ← p.optional 1 "init_dir" readText
    libraryDirectory := ← p.optional 2 "lib_dir" readText
    searchPath := ← p.optional 3 "search_path" readText
    ignoresEnvironment := ← p.defaulted 4 "ignore_env" false readBool
    mounts := Named.ofList (← p.defaulted 5 "mounts" [] (readTable readMount)) }

/-- A value that has to say what is to be logged. -/
def readLogging (v : Value) : Option Logging := do
  let p ← Parts.ofValue? v
  let standard : Logging := {}
  return {
    level := ← p.defaulted 0 "level" standard.level readText
    fileLevel := ← p.defaulted 1 "file_level" none fun v => (readText v).map some
    file := ← p.defaulted 2 "file" none fun v => (readText v).map some }

/-- What the text of a configuration file says. -/
def File.ofText? (text : String) : Option File := do
  let p := Parts.named (← Toml.parse text)
  return {
    version := ← p.required 0 "version" readWord
    profile := ← p.optional 1 "profile" readText
    profiles := ← p.required 2 "profiles" (readTable readProfile)
    logging := ← p.defaulted 3 "logging" {} readLogging }

end Sandbox.Config
