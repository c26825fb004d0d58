import Sandbox.Number.Binary64

/-!
# TOML values

A document is a table. Its tables are written in pieces, and how a table has come to be decides which
pieces may still be added: a table that was written as a value is complete, one that has a header does
not get a second one.
-/

namespace Sandbox.Toml

/-- How a table has come to be. -/
inductive Origin
  /-- By a header of its own. -/
  | header
  /-- By a header of a table inside it. -/
  | implied
  /-- By a key of several parts. -/
  | dotted
  /-- As a value, which is complete. -/
  | complete
  deriving DecidableEq, Repr

/-- A TOML value. -/
inductive Value
  | text (s : String)
  | int (n : Int)
  | float (x : Binary64)
  | bool (b : Bool)
  /-- A date, a time or both, as they are written. -/
  | moment (s : String)
  /-- A list is open where headers of one name have made it. -/
  | list (isOpen : Bool) (items : List Value)
  | table (origin : Origin) (fields : List (String × Value))

/-- The fields of a table. -/
abbrev Fields := List (String × Value)

namespace Fields

/-- Replaces a field, or adds it at the end. -/
def put (key : String) (v : Value) : Fields → Fields
  | [] => [(key, v)]
  | (k, old) :: rest => if k = key then (k, v) :: rest else (k, old) :: put key v rest

/-- Adds a field that is not there yet. -/
def add (key : String) (v : Value) (fields : Fields) : Option Fields :=
  if (fields.lookup key).isSome then none else some (fields.put key v)

/-- Changes the fields that a path of keys leads to. The path goes through the tables that `enters`
admits, and through the last table of an open list if `entersLists` is set; a table that is not there is
made with the origin `made`. -/
def alter (enters : Origin → Bool) (entersLists : Bool) (made : Origin)
    (change : Fields → Option Fields) : List String → Fields → Option Fields
  | [], fields => change fields
  | key :: path, fields =>
    match fields.lookup key with
    | none => do
      let inner ← alter enters entersLists made change path []
      return fields.put key (.table made inner)
    | some (.table origin inner) =>
      if enters origin then do
        let inner ← alter enters entersLists made change path inner
        return fields.put key (.table origin inner)
      else none
    | some (.list true items) =>
      match entersLists, items.getLast? with
      | true, some (.table origin inner) => do
        let inner ← alter enters entersLists made change path inner
        return fields.put key (.list true (items.dropLast ++ [.table origin inner]))
      | _, _ => none
    | some _ => none

/-- Changes the fields that a header leads to. -/
def atHeader (path : List String) (change : Fields → Option Fields) (fields : Fields) :
    Option Fields :=
  alter (· ≠ .complete) true .implied change path fields

/-- Begins the table of a header. -/
def beginTable (path : List String) (fields : Fields) : Option Fields :=
  match path.getLast? with
  | none => none
  | some key => fields.atHeader path.dropLast fun inner =>
    match inner.lookup key with
    | none => some (inner.put key (.table .header []))
    | some (.table .implied old) => some (inner.put key (.table .header old))
    | some _ => none

/-- Begins one more table of a header that may be repeated. -/
def beginItem (path : List String) (fields : Fields) : Option Fields :=
  match path.getLast? with
  | none => none
  | some key => fields.atHeader path.dropLast fun inner =>
    match inner.lookup key with
    | none => some (inner.put key (.list true [.table .header []]))
    | some (.list true items) => some (inner.put key (.list true (items ++ [.table .header []])))
    | some _ => none

/-- Adds a value under a key of one or several parts. -/
def assign (path : List String) (v : Value) (fields : Fields) : Option Fields :=
  match path.getLast? with
  | none => none
  | some key =>
    let enters (o : Origin) : Bool := o = .implied || o = .dotted
    alter enters false .dotted (add key v) path.dropLast fields

end Fields
end Sandbox.Toml
