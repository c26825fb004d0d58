import Sandbox.Script.Operation

/-!
# Arguments of routines

How the functions of the standard library take their arguments, and the errors for arguments that they
do not take. Arguments count from 1.
-/

namespace Sandbox.Script
namespace Run

variable {H W : Type} {α : Type}

/-- The text keys of a table under which a value stands. -/
def fieldOf? (t : Table) (v : Value) : Option String :=
  t.entries.findSome? fun
    | (.text k, w) => if w.rawEquals v then some k.toTextLossy else none
    | _ => none

/-- The name of a function in the modules that are there. -/
def moduleName? (f : Value) : Run H W (Option String) := do
  let m ← get
  let loaded := m.tables.getD m.loaded {}
  return loaded.entries.findSome? fun
    | (.text k, .table id) =>
      (fieldOf? (m.tables.getD id {}) f).map fun field =>
        let k := k.toTextLossy
        if k = "_G" then field else s!"{k}.{field}"
    | (.text k, v) => if v.rawEquals f then some k.toTextLossy else none
    | _ => none

/-- An argument of the running routine is wrong. -/
def raiseArgument (position : Nat) (reason : String) : Run H W α := do
  match (← get).frames.head? with
  | none => raiseForCaller s!"bad argument #{position} ({reason})"
  | some frame =>
    match frame.site with
    | some ⟨"method", name⟩ =>
      if position = 1 then raiseForCaller s!"calling '{name}' on bad self ({reason})"
      else raiseForCaller s!"bad argument #{position - 1} to '{name}' ({reason})"
    | some site => raiseForCaller s!"bad argument #{position} to '{site.name}' ({reason})"
    | none =>
      let name := (← moduleName? frame.function).getD "?"
      raiseForCaller s!"bad argument #{position} to '{name}' ({reason})"

/-- An argument, where a missing one is none. -/
def given? (arguments : List Value) (position : Nat) : Option Value := arguments[position - 1]?

/-- An argument, where a missing one is nil. -/
def given (arguments : List Value) (position : Nat) : Value :=
  (given? arguments position).getD .nil

/-- An argument is of another type. -/
def raiseArgumentType (arguments : List Value) (position : Nat) (wanted : String) : Run H W α := do
  let found ← match given? arguments position with
    | none => pure "no value"
    | some .pointer => pure "light userdata"
    | some v => typeNameOf v
  raiseArgument position s!"{wanted} expected, got {found}"

/-- An argument that has to be there. -/
def anyArgument (arguments : List Value) (position : Nat) : Run H W Value :=
  match given? arguments position with
  | some v => return v
  | none => raiseArgument position "value expected"

/-- An argument that is a table. -/
def tableArgument (arguments : List Value) (position : Nat) : Run H W Nat :=
  match given arguments position with
  | .table id => return id
  | _ => raiseArgumentType arguments position "table"

/-- An argument that is an integer, or a number or a text that stands for one. -/
def integerArgument (arguments : List Value) (position : Nat) : Run H W Int64 :=
  let v := given arguments position
  match Numeral.integer? v with
  | some n => return n
  | none =>
    if (Numeral.ofValue? v).isSome then
      raiseArgument position "number has no integer representation"
    else raiseArgumentType arguments position "number"

/-- An argument that is a number, or a text that writes one. -/
def numberArgument (arguments : List Value) (position : Nat) : Run H W Value :=
  match Numeral.ofValue? (given arguments position) with
  | some v => return v
  | none => raiseArgumentType arguments position "number"

/-- A number as a float. -/
def floatArgument (arguments : List Value) (position : Nat) : Run H W Binary64 := do
  return (Numeral.float (← numberArgument arguments position)).getD .zero

/-- An argument that is a text or a number. -/
def textArgument (arguments : List Value) (position : Nat) : Run H W ByteArray :=
  match Numeral.text? (given arguments position) with
  | some s => return s
  | none => raiseArgumentType arguments position "string"

/-- An argument with a default where it is missing or nil. -/
def orDefault (arguments : List Value) (position : Nat) (standard : α) (take : Run H W α) :
    Run H W α :=
  if (given arguments position).isNil then return standard else take

/-- An integer with a default. -/
def integerOr (arguments : List Value) (position : Nat) (standard : Int) : Run H W Int :=
  orDefault arguments position standard
    (do return (← integerArgument arguments position).toInt)

/-- A text with a default. -/
def textOr (arguments : List Value) (position : Nat) (standard : ByteArray) : Run H W ByteArray :=
  orDefault arguments position standard (textArgument arguments position)

end Run
end Sandbox.Script
