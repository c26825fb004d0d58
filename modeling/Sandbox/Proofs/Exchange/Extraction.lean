import Sandbox.Proofs.Exchange.Nesting
import Sandbox.Proofs.Script.Keys

/-!
# Reading lists

A table that says that it has a length is read as a list of this length exactly if its keys are indices
of this list and the list is no longer than the table can be: each value stands at its index, and null
where there is none.
-/

namespace Sandbox

open Script Script.Machine

namespace Exchange

/-! ## The slots of a list -/

section Slots

variable {count k : Nat} {items : List (Int × Datum)} {d : Datum} {slots : Array Datum}

/-- Puts items into slots, one after the other. -/
def putItems (slots : Array Datum) (items : List (Int × Datum)) : Array Datum :=
  items.foldl (fun acc e => acc.setIfInBounds (e.1.toNat - 1) e.2) slots

end Slots

/-! ## Entries that become items -/

variable {H W : Type} {invoke : Invoke H W} {m₀ m m₁ m' : Machine H W} {id depth : Nat} {length : Int}

/-- A key is an index of a list of this length. -/
def IsIndex (length : Int) (key : Value) : Prop :=
  ∃ n : Int64, key = .int n ∧ 1 ≤ n.toInt ∧ n.toInt ≤ length

/-- An entry stands for an item: its key is an index in the list. -/
def Stands (length : Int) (entry : Value × Value) (i : Int) : Prop :=
  indexOf entry.1 = .ok i ∧ 1 ≤ i ∧ i ≤ length

theorem IsIndex.stands {entry : Value × Value} (h : IsIndex length entry.1) :
    ∃ i, Stands length entry i := by
  obtain ⟨n, hkey, hlow, hhigh⟩ := h
  exact ⟨n.toInt, by rw [hkey, indexOf], hlow, hhigh⟩

end Exchange
end Sandbox
