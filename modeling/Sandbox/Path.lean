/-!
# Lexical paths

A path is read as its steps, without looking at any disk: empty steps and `.` are dropped, and `..`
is kept until `Path.clean` takes it together with the name in front of it. In a clean path `..`
stands only at the start, and not at all where the path is absolute.
-/

namespace Sandbox

/-- A path as its steps. -/
structure Path where
  /-- The path begins at the root. -/
  absolute : Bool
  /-- Names and `..`, in order. -/
  steps : List String
  deriving DecidableEq, Repr, Inhabited

namespace Path

/-- The steps that the pieces of a path's text stand for. -/
def stepsOf (pieces : List String) : List String := pieces.filter fun s => s ≠ "" && s ≠ "."

/-- The pieces of a text between slashes. -/
def pieces (text : String) : List String := (text.toList.splitOn '/').map String.ofList

/-- Reads the text of a path. -/
def ofText (text : String) : Path := ⟨text.startsWith '/', stepsOf (pieces text)⟩

/-- The text of a path. -/
def toText (p : Path) : String := (if p.absolute then "/" else "") ++ "/".intercalate p.steps

/-- A path seen from another one; an absolute path stays what it is. -/
def join (p q : Path) : Path := if q.absolute then q else ⟨p.absolute, p.steps ++ q.steps⟩

/-- Takes one step from a clean place, whose steps are given last to first. Upwards from the root
stays at the root, and upwards from the start of a relative path is kept. -/
def advance (absolute : Bool) (place : List String) (step : String) : List String :=
  if step = ".." then
    match place with
    | [] => if absolute then [] else [".."]
    | last :: rest => if last = ".." then ".." :: place else rest
  else step :: place

/-- The same place without detours. -/
def clean (p : Path) : Path := { p with steps := (p.steps.foldl (advance p.absolute) []).reverse }

/-- The path begins with all the steps of another one. -/
def isWithin (p root : Path) : Bool := p.absolute == root.absolute && root.steps.isPrefixOf p.steps

/-- The steps of a path below another one. -/
def below? (p root : Path) : Option (List String) :=
  if p.isWithin root then some (p.steps.drop root.steps.length) else none

end Path
end Sandbox
