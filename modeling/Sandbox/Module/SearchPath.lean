import Sandbox.Text.Replace

/-!
# Search paths

A search path is a list of templates between semicolons. A module is looked for at the candidates
that its name makes of the templates, in order; the first that can be opened is the answer.
-/

namespace Sandbox.SearchPath

/-- The search path that is used where none is given. -/
def standard : String := "?.lua"

/-- The environment variable that holds a search path where no other is named. -/
def standardVariable : String := "LUA_PATH"

/-- A doubled semicolon stands for the standard path between semicolons. -/
def expandDoubled : List Char → List Char
  | ';' :: ';' :: rest => ';' :: standard.toList ++ ';' :: expandDoubled rest
  | c :: rest => c :: expandDoubled rest
  | [] => []

/-- The search path for a given one, which may be missing, empty or ignored. -/
def expand (given : Option String) (ignored : Bool) : String :=
  match given with
  | some path =>
    if path.isEmpty || ignored then standard else String.ofList (expandDoubled path.toList)
  | none => standard

/-- Where the search path comes from. -/
structure Settings where
  /-- The environment variable that holds it. -/
  variableName : String := standardVariable
  /-- The environment is not consulted. -/
  ignoresEnvironment : Bool := false
  /-- A search path that goes before the environment. -/
  explicit : Option String := none

/-- The search path under some settings and an environment. -/
def Settings.path (s : Settings) (environment : List (String × String)) : String :=
  match s.explicit with
  | some path => expand (some path) false
  | none => expand (environment.lookup s.variableName) s.ignoresEnvironment

/-- The templates of a search path. -/
def templates (path : String) : List String :=
  ((path.toList.splitOn ';').map String.ofList).filter (· ≠ "")

/-- The file that a template names for a module. -/
def candidate (name : List Char) (template : String) : String :=
  String.ofList (template.toList.flatMap fun c => if c = '?' then name else [c])

/-- The files that are tried for a module, in order. The separators in its name become directory
separators. -/
def candidates (name path separator directorySeparator : String) : List String :=
  let name := replaceAll separator.toList directorySeparator.toList name.toList
  (templates path).map (candidate name)

/-- The first of some files that can be opened, or what has been tried in vain. -/
def search (opens : String → Bool) (files : List String) : Except (List String) String :=
  match files.find? opens with
  | some file => .ok file
  | none => .error files

/-- The lines that say what has been tried in vain. -/
def missingMessage (files : List String) : String :=
  String.join (files.map fun f => s!"\n\tno file '{f}'")

end Sandbox.SearchPath
