import Sandbox.Module.Require
import Sandbox.Proofs.Script.Run

/-!
# The table of modules

What is kept of a module is a field of the table of modules. As long as this table has no metatable,
looking there changes nothing, and keeping a module changes this table only.
-/

namespace Sandbox

open Script

variable {H : Type} {m m' : Machine H World}

namespace Script.Machine

/-- The machine with one more event in its history. -/
def noted (m : Machine H World) (event : Module.Event) : Machine H World :=
  { m with world.history := m.world.history ++ [event] }

/-- The table of modules. -/
def modules (m : Machine H World) : Table := m.tableAt m.loaded

@[simp] theorem loaded_noted (m : Machine H World) (event : Module.Event) :
    (m.noted event).loaded = m.loaded := rfl

@[simp] theorem tableAt_noted (m : Machine H World) (event : Module.Event) (id : Nat) :
    (m.noted event).tableAt id = m.tableAt id := rfl

@[simp] theorem modules_noted (m : Machine H World) (event : Module.Event) :
    (m.noted event).modules = m.modules := rfl

@[simp] theorem history_noted (m : Machine H World) (event : Module.Event) :
    (m.noted event).world.history = m.world.history ++ [event] := rfl

/-- The machine with another table of modules. -/
def setModules (m : Machine H World) (t : Table) : Machine H World := m.setTable m.loaded t

theorem modules_setModules (h : m.loaded < m.tables.size) (t : Table) :
    (m.setModules t).modules = t := tableAt_setTable h t

@[simp] theorem setModules_modules (m : Machine H World) : m.setModules m.modules = m :=
  setTable_tableAt m m.loaded

@[simp] theorem setModules_setModules (m : Machine H World) (s t : Table) :
    (m.setModules s).setModules t = m.setModules t := setTable_setTable m m.loaded s t

@[simp] theorem loaded_setModules (m : Machine H World) (t : Table) :
    (m.setModules t).loaded = m.loaded := rfl

@[simp] theorem world_setModules (m : Machine H World) (t : Table) :
    (m.setModules t).world = m.world := rfl

@[simp] theorem size_tables_setModules (m : Machine H World) (t : Table) :
    (m.setModules t).tables.size = m.tables.size := size_tables_setTable m m.loaded t

end Script.Machine

namespace Script.Table

/-- The value of a field, or another one where it is nil. -/
def fieldOr (t : Table) (name : String) (v : Value) : Value :=
  if (t.getText name).isNil then v else t.getText name

/-- The table with a value in a field where there was none. -/
def withDefault (t : Table) (name : String) (v : Value) : Table :=
  if (t.getText name).isNil then t.setText name v else t

/-- The table with a value in a field, where nil is no value. -/
def put (t : Table) (name : String) (v : Value) : Table := if v.isNil then t else t.setText name v

/-- The table of modules once the function of a module has returned a result: the result is kept, and
true in place of nothing. -/
def settled (t : Table) (name : String) (result : Value) : Table :=
  (t.put name result).withDefault name (.bool true)

end Script.Table

namespace Module

theorem note_run (event : Event) : (note event : Run H World Unit).run m = .ok () (m.noted event) :=
  rfl

theorem noteModules_run (event : Table → Event) :
    (noteModules event : Run H World Unit).run m = .ok () (m.noted (event m.modules)) := rfl

variable {name : String}

section Plain

variable (h : m.modules.metatable = none) (invoke : Invoke H World)

include h

theorem kept_run : (kept invoke name).run m = .ok (m.modules.getText name) m := by
  rw [kept, Run.bind_ok Run.get_run]
  exact Run.hostField_run h invoke name

theorem keep_run (v : Value) :
    (keep invoke name v).run m = .ok () (m.setModules (m.modules.setText name v)) := by
  rw [keep, Run.bind_ok Run.get_run]
  exact Run.setHostField_run h invoke name v

theorem keepResult_run (result : Value) :
    (keepResult invoke name result).run m = .ok () (m.setModules (m.modules.put name result)) := by
  unfold keepResult Table.put
  cases result.isNil
  · exact keep_run h invoke result
  · exact congrArg _ (Machine.setModules_modules m).symm

theorem keptOrTrue_run :
    (keptOrTrue invoke name).run m = .ok (m.modules.fieldOr name (.bool true))
      (m.setModules (m.modules.withDefault name (.bool true))) := by
  rw [keptOrTrue, Run.bind_ok (kept_run h invoke)]
  unfold Table.fieldOr Table.withDefault
  cases (m.modules.getText name).isNil
  · exact congrArg _ (Machine.setModules_modules m).symm
  · exact Run.bind_ok (keep_run h invoke _)

/-- After the function of a module has returned, its result is kept, and the module is what is kept
then. -/
theorem settle_run (hthere : m.loaded < m.tables.size) (result : Value) :
    (settle invoke name result).run m =
      .ok ((m.modules.put name result).fieldOr name (.bool true))
        ((m.noted (.returned name result m.modules)).setModules (m.modules.settled name result)) := by
  have hput : (m.modules.put name result).metatable = none := by
    unfold Table.put
    split
    · exact h
    · rw [Table.metatable_setText, h]
  have hmodules := Machine.modules_setModules (m := m.noted (.returned name result m.modules)) hthere
    (m.modules.put name result)
  rw [settle, Run.bind_ok (noteModules_run _),
    Run.bind_ok (keepResult_run (m := m.noted _) h invoke result),
    keptOrTrue_run (by rw [Machine.modules_noted, hmodules, hput])]
  rw [Machine.modules_noted, hmodules, Machine.setModules_setModules]
  rfl

end Plain

end Module
end Sandbox
