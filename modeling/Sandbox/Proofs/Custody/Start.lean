import Sandbox.Proofs.Custody.Session

/-!
# The loader is in custody from the start

At first the global variable `load` is the loader itself. The chunk that binds it to text keeps the loader
in a variable of its own and puts the function that hands on in its place, so that the machine is guarded
before any other script runs.
-/

namespace Sandbox

namespace Script

open Run

/-! ## Other hosts -/

section Hosted

variable {H H' W W' : Type} {α β : Type}

/-- The same with other functions of the host. -/
def Callable.hosted (f : H → H') : Callable H → Callable H'
  | .closure chunk function locals => .closure chunk function locals
  | .routine r => .routine r
  | .host h => .host (f h)

/-- The machine with other functions of the host and another world. -/
def Machine.hosted (f : H → H') (world : W') (m : Machine H W) : Machine H' W' where
  tables := m.tables
  functions := m.functions.map (·.hosted f)
  locals := m.locals
  faults := m.faults
  others := m.others
  textMetatable := m.textMetatable
  globals := m.globals
  loaded := m.loaded
  frames := m.frames
  world

variable {f : H → H'} {world : W'}

/-- The outcome with other functions of the host and another world. -/
def hostedResult (f : H → H') (world : W') :
    EStateM.Result Stop (Machine H W) α → EStateM.Result Stop (Machine H' W') α
  | .ok a m => .ok a (m.hosted f world)
  | .error stop m => .error stop (m.hosted f world)

/-- A run does the same as another one on the machine with other functions of the host. -/
def Mirrors (f : H → H') (world : W') (act : Run H W α) (act' : Run H' W' α) : Prop :=
  ∀ m, act'.run (m.hosted f world) = hostedResult f world (act.run m)

namespace Mirrors

theorem pure (a : α) : Mirrors f world (pure a : Run H W α) (pure a) := fun _ => rfl

theorem bind {act : Run H W α} {act' : Run H' W' α} {next : α → Run H W β} {next' : α → Run H' W' β}
    (hact : Mirrors f world act act') (hnext : ∀ a, Mirrors f world (next a) (next' a)) :
    Mirrors f world (act >>= next) (act' >>= next') := by
  intro m
  rw [EStateM.run_bind, EStateM.run_bind, hact m]
  cases act.run m with
  | ok a m' => exact hnext a m'
  | error stop m' => rfl

theorem discard {act : Run H W α} {act' : Run H' W' α} (hact : Mirrors f world act act') :
    Mirrors f world (discard act) (discard act') := by
  have hmap {H W : Type} (act : Run H W α) :
      (Functor.discard act : Run H W PUnit) = act >>= fun _ => Pure.pure ⟨⟩ := rfl
  rw [hmap, hmap]
  exact .bind hact fun _ => .pure _

theorem forM {step : β → Run H W PUnit} {step' : β → Run H' W' PUnit} (l : List β)
    (hstep : ∀ b, Mirrors f world (step b) (step' b)) :
    Mirrors f world (l.forM step) (l.forM step') := by
  induction l with
  | nil => exact .pure _
  | cons b rest ih => exact .bind (hstep b) fun _ => ih

theorem newTable (t : Table) : Mirrors f world (newTable t : Run H W Nat) (newTable t) := fun _ => rfl

theorem setField (id : Nat) (key : String) (v : Value) :
    Mirrors f world (setField id key v : Run H W Unit) (setField id key v) := fun _ => rfl

theorem newFunction (g : Callable H) :
    Mirrors f world (newFunction g : Run H W Value) (newFunction (g.hosted f)) := by
  intro m
  change EStateM.Result.ok _ _ = EStateM.Result.ok _ _
  simp [Machine.hosted]

theorem setRoutines (id : Nat) (routines : List (String × Routine)) :
    Mirrors f world (Library.setRoutines id routines : Run H W Unit) (Library.setRoutines id routines) :=
  .forM _ fun _ => .bind (.newFunction _) fun _ => .setField _ _ _

theorem setFields (id : Nat) (fields : List (String × Value)) :
    Mirrors f world (Library.setFields id fields : Run H W Unit) (Library.setFields id fields) :=
  .forM _ fun _ => .setField _ _ _

theorem publish (name : String) (id : Nat) :
    Mirrors f world (Library.publish name id : Run H W Unit) (Library.publish name id) := fun _ => rfl

theorem newModule (name : String) (routines : List (String × Routine)) :
    Mirrors f world (Library.newModule name routines : Run H W Nat) (Library.newModule name routines) :=
  .bind (.newTable _) fun id => .bind (.setRoutines id _) fun _ => .bind (.publish name id) fun _ =>
    .pure id

/-- The standard library is the same for all hosts. -/
theorem install : Mirrors f world (Library.install : Run H W Unit) Library.install := by
  refine .bind (.newTable _) fun globals => .bind (.newTable _) fun loaded => ?_
  refine .bind (fun _ => rfl) fun _ => .bind (.publish _ _) fun _ => .bind (.setField _ _ _) fun _ => ?_
  refine .bind (.setRoutines _ _) fun _ => .bind (.discard (.newFunction _)) fun _ => ?_
  refine .bind (.newModule _ _) fun _ => .bind (.discard (.newModule _ _)) fun _ => ?_
  refine .bind (.newModule _ _) fun _ => .bind (.setFields _ _) fun _ => ?_
  refine .bind (.newModule _ _) fun _ => .bind (.setFields _ _) fun _ => ?_
  refine .bind (.newTable _) fun _ => .bind (.setRoutines _ _) fun _ => ?_
  exact .bind (.setField _ _ _) fun _ => fun _ => rfl

end Mirrors

end Hosted

/-- A routine without variables that is not the loader. -/
def Routine.isPlain : Routine → Bool
  | .base .load | .text (.matchStep ..) => false
  | _ => true

/-- A function without variables that is not the loader. -/
def Callable.isPlain {H : Type} : Callable H → Bool
  | .closure .. => false
  | .routine r => r.isPlain
  | .host _ => true

section Binding

variable {H W : Type} {m : Machine H W} {invoke : Invoke H W}

namespace Run

section Statements

variable {id : Nat} {key : String} {frame : Frame} {frames : List Frame}
  (invoke : Invoke H W) (scope : Scope) (x : Slot) (l₁ l₂ : Nat) (hframes : m.frames = frame :: frames)
  (hx : m.locals.getD (scope.locals.getD x.index 0) .nil = .table id)
  (hthere : (m.tableAt id).getText key ≠ .nil)

include hframes hx hthere

end Statements

end Run

end Binding

end Script

open Script Script.Run

namespace Setup

variable {E W : Type}

/-- A service as one of a session with an extension. -/
def lift : Service Empty → Service E
  | .print => .print
  | .loadFile => .loadFile
  | .runFile => .runFile
  | .require tables => .require tables
  | .searchPath => .searchPath
  | .loadLibrary => .loadLibrary
  | .log => .log
  | .logLevel => .logLevel
  | .yamlText => .yamlText
  | .yamlValue => .yamlValue
  | .jsonText => .jsonText
  | .jsonValue => .jsonValue
  | .environ => .environ
  | .arguments => .arguments

end Setup

/-- Who holds the loader in sessions. -/
def Session.custody : Custody := ⟨5, 1, 79⟩

namespace Setup

/-! ### The machine with the services -/

section Served

set_option maxRecDepth 10000

end Served

/-- A machine where the loader is still a global variable, in front of the chunk that binds `load`. -/
structure Unbound (m : Machine (Service E) W) : Prop where
  globals : m.globals = 0
  frames : m.frames = []
  locals : m.locals = #[]
  size : m.functions.size = 78
  loader : m.functions[5]? = some (.routine (.base .load))
  functions : ∀ id f, id ≠ 5 → m.functions[id]? = some f → Clear Session.custody f
  load : (m.tableAt 0).getText "load" = .function 5
  tables : ∀ id, id ≠ 0 → Clear Session.custody (m.tableAt id)
  bound : Clear Session.custody ((m.tableAt 0).setText "load" (.function 79))
  hidden : (hiddenGlobals.foldl (fun t name => t.setText name .nil)
    ((m.tableAt 0).setText "load" (.function 79))).getText "load" = .function 79

/-- A machine is guarded where the loader has moved to a variable of the chunk that binds `load`, and
`load` is the function that this chunk has made. -/
theorem Unbound.guarded {m bound : Machine (Service E) W} (h : Unbound m) {chunk : String}
    {f g : Function} (hg : g.handsOn = true) (hlocals : bound.locals = #[.table 0, .function 5])
    (hfunctions : ∀ id, bound.functions[id]? =
      if id = 79 then some (.closure chunk g [1, 0])
      else if id = 78 then some (.closure chunk f [0]) else m.functions[id]?)
    (htables : bound.tables = m.tables.setIfInBounds 0 ((m.tableAt 0).setText "load" (.function 79))) :
    Guarded Session.custody bound := by
  constructor
  case loader => simpa [hfunctions, Session.custody] using h.loader
  case cell => simp [hlocals, Session.custody]
  case cell_pos => decide
  case door => exact ⟨chunk, g, by simp [hfunctions, Session.custody], hg⟩
  case tables =>
    intro t ht
    rw [htables] at ht
    obtain ⟨id, hid, rfl⟩ := Array.getElem_of_mem ht
    have hlt : id < m.tables.size := by simpa using hid
    rw [Array.getElem_setIfInBounds hlt]
    split
    · exact h.bound
    case isFalse hne => simpa [Machine.tableAt, hlt] using h.tables id (Ne.symm hne)
  case locals =>
    intro id v hid hv
    have hne : id ≠ 1 := hid
    rw [hlocals] at hv
    cases id with
    | zero =>
      obtain rfl := Option.some.inj hv
      simp
    | succ id =>
      have hlast : 2 ≤ id + 1 := by omega
      rw [Array.getElem?_eq_none hlast] at hv
      cases hv
  case functions =>
    intro id k hloader hdoor hk
    rw [hfunctions] at hk
    split at hk
    · contradiction
    · split at hk
      · obtain rfl := Option.some.inj hk
        simp [clear_closure, Session.custody]
      · exact h.functions id k hloader hk

end Setup

end Sandbox
