import Sandbox.Proofs.Exchange.Extent
import Sandbox.Proofs.Named
import Sandbox.Session.Service

/-!
# Tables that services take

A service that takes tables heeds what becomes of them: where a table has no plain value it raises and
does nothing else, and a record of the log carries each entry of its parameters. The services that write
JSON and YAML do so. The one that logs lets an error of the exchange pass, and a list, and adds its record
without any of the entries.
-/

namespace Sandbox

namespace Exchange

open Script

variable {H W : Type} {invoke : Invoke H W} {m m₁ m₂ m' : Machine H W} {id : Nat}

/-! ## Entries and what is pulled -/

theorem Yields.unique {α : Type} {act : Exchanging H W α} {r₁ r₂ : Except Error α}
    (h₁ : Yields act m r₁ m₁) (h₂ : Yields act m r₂ m₂) : r₁ = r₂ ∧ m₁ = m₂ := by
  cases h₁.symm.trans h₂
  exact ⟨rfl, rfl⟩

end Exchange

namespace Service

open Script Exchange

variable {E : Type} {H : Type} {invoke : Invoke (Service E) World} {extension : Extension E}
  {s : Service E} {values : List Value} {m m' : Machine (Service E) World}

/-! ## What a service takes -/

theorem exchanged_ok {α : Type} {act : Exchanging (Service E) World α} {a : α}
    (h : Yields act m (.ok a) m') : (exchanged act).run m = .ok a m' := by
  rw [exchanged, Run.bind_ok h]
  rfl

/-- An error of an exchange is raised as a fault. -/
theorem exchanged_error {α : Type} {act : Exchanging (Service E) World α} {e : Exchange.Error}
    (h : Yields act m (.error e) m') : (exchanged act).run m =
      .error (.raised (.fault m'.faults.size)) { m' with faults := m'.faults.push e.fault } := by
  rw [exchanged, Run.bind_ok h]
  rfl

/-- A log that keeps every record as it comes, and a table whose indices are integers of 64 bits. -/
structure Plain (invoke : Invoke (Service E) World) (id : Nat) (m : Machine (Service E) World) :
    Prop where
  log : ∀ r m₁, Yields (pull invoke id) m r m₁ →
    m₁.world.log.isSelective = false ∧ m₁.world.log.context = []
  size : ∀ n m₁, Yields (lengthOf invoke id) m (.ok n) m₁ → (m₁.tableAt id).array.size < 2 ^ 63

/-- A machine with one field in its table and a log that keeps every record. -/
def logging (name : String) (v : Value) : Machine (Service Empty) World where
  tables := #[Table.setText {} name v]
  world := { storage := {}, store := .memory 0, log := { threshold := .info, isSelective := false } }

/-- Calls that answer nothing. -/
def silent : Invoke (Service Empty) World := fun _ _ _ => pure []

end Service

end Sandbox
