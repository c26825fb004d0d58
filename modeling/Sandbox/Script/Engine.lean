import Sandbox.Script.Evaluation

/-!
# Calls

How a machine calls a value. `Engine.call` is bounded by the depth of calls; a call in place of the
running function does not count. What the functions of the library and of the host do is given by an
`Engine`.
-/

namespace Sandbox.Script

/-- What the functions that are not from scripts do, for a way of calling values. -/
structure Engine (H W : Type) where
  routine : Invoke H W → Routine → List Value → Run H W (List Value)
  host : Invoke H W → H → List Value → Run H W (List Value)

namespace Engine

variable {H W : Type}

/-- How many calls may be nested. -/
def depthLimit : Nat := 7000

/-- How many calls that are not from scripts may be nested. -/
def nestingLimit : Nat := 196

/-- How often a value that is no function may stand for another one. -/
def standInLimit : Nat := 100

/-- Raises the error text for a value that cannot be called. -/
def raiseUncallable {α : Type} (site : Option Site) (f : Value) : Run H W α := do
  Run.raiseText s!"attempt to call a {← Run.typeNameOf f} value{Site.describe site}"

/-- The function that a call of a value calls, and its arguments. -/
def resolve (site : Option Site) : Nat → Value → List Value → Run H W (Nat × List Value)
  | _, .function id, arguments => return (id, arguments)
  | 0, f, _ => do
    discard (Run.metafield f "__call")
    raiseUncallable site f
  | n + 1, f, arguments => do
    match ← Run.metafield f "__call" with
    | .function id => return (id, f :: arguments)
    | .table id => resolve site n (.table id) (f :: arguments)
    | _ => raiseUncallable site f

/-- The nesting of a call from the running function. -/
def nestingOf (site : Option Site) : Run H W Nat := do
  match (← get).frames with
  | [] => return 1
  | f :: _ =>
    let isDirect := f.chunk.isSome && (site.map (·.kind)) != some "metamethod"
    if isDirect then return f.nesting
    else if f.nesting ≥ nestingLimit then Run.raiseText "C stack overflow"
    else return f.nesting + 1

/-- Runs a function in a frame of its own. The answer is the call that takes its place, if there is
one, and its results otherwise. -/
def enter (engine : Engine H W) (invoke : Invoke H W) (site : Option Site) (id : Nat)
    (arguments : List Value) :
    Run H W ((Option Site × Value × List Value) ⊕ List Value) := do
  let nesting ← nestingOf site
  match (← get).functions[id]? with
  | none => return .inr []
  | some (.closure chunk function locals) => do
    let .mk line _ _ _ := function
    Run.inFrame ⟨.function id, some chunk, line, site, nesting⟩ do
      match ← Run.runFunction invoke chunk function locals arguments with
      | .finish values => return .inr values
      | .tail site (.function id) arguments =>
        match (← get).functions[id]? with
        | some (.closure ..) => return .inl (none, .function id, arguments)
        | _ => return .inr (← invoke site (.function id) arguments)
      | .tail site f arguments => return .inr (← invoke site f arguments)
      | _ => return .inr []
  | some (.routine r) => Run.inFrame ⟨.function id, none, 0, site, nesting⟩ do
    return .inr (← engine.routine invoke r arguments)
  | some (.host h) => Run.inFrame ⟨.function id, none, 0, site, nesting⟩ do
    return .inr (← engine.host invoke h arguments)

/-- Calls a value. -/
def call (engine : Engine H W) : Nat → Invoke H W
  | 0, _, _, _ => Run.raiseText "stack overflow"
  | depth + 1, site, f, arguments =>
    Run.repeatFrom (fun (c : Option Site × Value × List Value) => do
      let (callee, arguments) ← resolve c.1 standInLimit c.2.1 c.2.2
      enter engine (call engine depth) c.1 callee arguments) Run.budget (site, f, arguments)

/-- Calls a value as the host does. -/
def invoke (engine : Engine H W) : Invoke H W := engine.call depthLimit

end Engine
end Sandbox.Script
