/-!
# Things by name

A list of pairs in the order of the names, where no name occurs twice. `Named.insert` keeps it so.
-/

namespace Sandbox.Named

variable {α : Type}

/-- Puts a thing in its place; it replaces an earlier one of the same name. -/
def insert (name : String) (a : α) : List (String × α) → List (String × α)
  | [] => [(name, a)]
  | (n, b) :: rest =>
    if name < n then (name, a) :: (n, b) :: rest
    else if name = n then (name, a) :: rest
    else (n, b) :: insert name a rest

/-- Puts more things in their places, one after the other. -/
def insertAll (things more : List (String × α)) : List (String × α) :=
  more.foldl (fun acc (name, a) => insert name a acc) things

/-- Some things by name, of which a later one replaces an earlier one. -/
def ofList (things : List (String × α)) : List (String × α) := insertAll [] things

end Sandbox.Named
