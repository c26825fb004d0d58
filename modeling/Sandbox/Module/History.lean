import Sandbox.Script.Table

/-!
# The history of the module system

What happens where scripts ask for modules, one event after the other. Nothing that runs looks at it;
it is there to tell what a whole run has done.
-/

namespace Sandbox

open Script

/-- A place to look for modules. -/
inductive Searcher
  | preload | library | path
  deriving DecidableEq, Repr

namespace Module

/-- A step of the module system. Where it looks at the table of modules, the table goes with it. -/
inductive Event
  /-- A module is asked for. -/
  | asked (name : String) (modules : Table)
  /-- A searcher is asked for the module. -/
  | consulted (name : String) (s : Searcher)
  /-- The function that makes the module is called. -/
  | called (name : String) (loader : Value) (label : String)
  /-- This function has returned a value. -/
  | returned (name : String) (result : Value) (modules : Table)
  /-- Whoever has asked for the module gets it. -/
  | answered (name : String) (v : Value) (modules : Table)
  deriving DecidableEq

end Module
end Sandbox
