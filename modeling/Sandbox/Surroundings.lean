import Sandbox.Disk

/-!
# Surroundings

What a program finds where it runs: a disk, the directory that relative paths start from, and variables.
-/

namespace Sandbox

/-- Where a program runs. -/
structure Surroundings where
  disk : Disk
  /-- The directory that relative paths start from. -/
  cwd : Path := ⟨true, []⟩
  environ : List (String × String) := []
  /-- The time that is stamped on what changes now. -/
  now : Timestamp := .epoch

namespace Surroundings

/-- The value of a variable. -/
def valueOf? (s : Surroundings) (name : String) : Option String := s.environ.lookup name

/-- The home directory; an empty one is none. -/
def home? (s : Surroundings) : Option String := (s.valueOf? "HOME").filter (· ≠ "")

/-- A path leads to something. -/
def hasPath (s : Surroundings) (path : String) : Bool := (s.disk.find s.cwd path).toOption.isSome

/-- A path leads to a directory. -/
def hasDirectory (s : Surroundings) (path : String) : Bool := s.disk.hasDirectory s.cwd path

end Surroundings
end Sandbox
