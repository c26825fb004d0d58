import Sandbox.Script.Numeral
import Sandbox.Text.Utf8

/-!
# Syntax of scripts

What the grammar makes of a chunk. Local variables are resolved: a variable is its distance from the
innermost one in scope, and a function sees all variables of the functions around it in the same list.
A global variable is a field of the variable `_ENV`, which is the outermost one of each chunk.

Expressions carry the line on which a failure of theirs is reported.
-/

namespace Sandbox.Script

/-- The comparing operators. -/
inductive Comparison
  | equal | unequal | below | atMost | above | atLeast
  deriving DecidableEq, Repr

/-- The use of a local variable. -/
structure Slot where
  /-- The number of variables in scope that are further in. -/
  index : Nat
  name : String
  /-- The variable belongs to a function around this one. -/
  isOuter : Bool
  deriving DecidableEq, Repr

mutual

/-- An expression. -/
inductive Expression
  | nil
  | bool (b : Bool)
  | int (n : Int64)
  | float (x : Binary64)
  | text (s : ByteArray)
  /-- The further arguments of the function. -/
  | variadic
  | variable (slot : Slot)
  | index (line : Nat) (object key : Expression)
  | call (line : Nat) (callee : Expression) (arguments : List Expression)
  /-- A call of a field of an object, which is the first argument too. -/
  | method (line : Nat) (object : Expression) (name : String) (arguments : List Expression)
  | function (f : Function)
  | arithmetic (line : Nat) (op : Operator) (a b : Expression)
  | comparison (line : Nat) (op : Comparison) (a b : Expression)
  | concat (line : Nat) (a b : Expression)
  | and (a b : Expression)
  | or (a b : Expression)
  | not (a : Expression)
  | negative (line : Nat) (a : Expression)
  | complement (line : Nat) (a : Expression)
  | length (line : Nat) (a : Expression)
  | table (items : List Item)
  /-- An expression in parentheses, which has one value. -/
  | single (a : Expression)

/-- An item of a table constructor. -/
inductive Item
  | next (value : Expression)
  | pair (line : Nat) (key value : Expression)

/-- A function. -/
inductive Function
  | mk (line parameters : Nat) (isVariadic : Bool) (body : List Statement)

/-- A statement. -/
inductive Statement
  /-- New variables, and which of them is closed at the end of the block. -/
  | locals (line : Nat) (names : List String) (closing : Option Nat) (values : List Expression)
  /-- A new variable for a function that sees itself. -/
  | localFunction (f : Function)
  | assign (line : Nat) (targets values : List Expression)
  | call (call : Expression)
  | block (body : List Statement)
  | whileLoop (condition : Expression) (body : List Statement)
  | repeatLoop (body : List Statement) (condition : Expression)
  | numericFor (line : Nat) (start stop : Expression) (step : Option Expression)
      (body : List Statement)
  | genericFor (line count : Nat) (values : List Expression) (body : List Statement)
  | ifElse (condition : Expression) (yes no : List Statement)
  | result (values : List Expression)
  | leave
  | goto (label : String)
  /-- A label, and how many variables are in scope there. -/
  | label (name : String) (depth : Nat)

end

instance : Inhabited Expression := ⟨.nil⟩
instance : Inhabited Statement := ⟨.leave⟩
instance : Inhabited Function := ⟨.mk 0 0 false []⟩

/-- The name of the variable that holds the global variables. -/
def environmentName : String := "_ENV"

/-- How a program text names a value: by a kind of variable and a name. -/
structure Site where
  kind : String
  name : String
  deriving DecidableEq, Repr

/-- The name in an error text. -/
def Site.describe : Option Site → String
  | some s => s!" ({s.kind} '{s.name}')"
  | none => ""

/-- Indices up to this one are part of the operation. -/
def smallIndexLimit : Int := 255

/-- The name that an expression gives to its value. -/
def Expression.site? : Expression → Option Site
  | .variable slot => some ⟨if slot.isOuter then "upvalue" else "local", slot.name⟩
  | .text s => some ⟨"constant", s.toTextLossy⟩
  | .index _ object key =>
    let name := match key with
      | .text s => s.toTextLossy
      | .int n => if 0 ≤ n.toInt && n.toInt ≤ smallIndexLimit then "integer index" else "?"
      | _ => "?"
    match object with
    | .variable slot => some ⟨if slot.name = environmentName then "global" else "field", name⟩
    | _ => some ⟨"field", name⟩
  | .method _ _ name _ => some ⟨"method", name⟩
  | .single a => a.site?
  | _ => none

/-- The name of what a call calls. -/
def Expression.calleeSite? : Expression → Option Site
  | .call _ callee _ => callee.site?
  | .method _ _ name _ => some ⟨"method", name⟩
  | _ => none

end Sandbox.Script
