import Sandbox.Proofs.Exchange.Stable
import Mathlib.Data.List.Perm.Subperm

/-!
# How long a list can be

A list that is read from a table is as long as one of the table's indices. Where the table has none
behind its array part, or more entries than slots, this is no more than the table holds. But a border
is searched for among the nodes by doubling an index while it is present, so a few entries at powers of
two make a list that is longer than the table by an exponent.
-/

namespace Sandbox

namespace Script.Table

variable {t : Table}

/-! ## How far a border can be -/

/-- An index and its doubles, up to a power of two, are present. -/
def DoublesPresent (t : Table) (index k : Nat) : Prop :=
  ∀ j ≤ k, index * 2 ^ j ≤ maxIndex ∧ t.isAbsent (index * 2 ^ j) = false

theorem doublesPresent_zero {index : Nat} (hindex : index ≤ maxIndex)
    (hpresent : t.isAbsent index = false) : t.DoublesPresent index 0 := by
  intro j hj
  obtain rfl : j = 0 := by omega
  simpa using And.intro hindex hpresent

theorem mul_two_mul_pow (index j : Nat) : index * 2 * 2 ^ j = index * 2 ^ (j + 1) := by
  rw [Nat.pow_succ', Nat.mul_assoc]

theorem DoublesPresent.succ {index k : Nat} (hindex : index ≤ maxIndex)
    (hpresent : t.isAbsent index = false) (h : t.DoublesPresent (index * 2) k) :
    t.DoublesPresent index (k + 1) := by
  intro j hj
  cases j with
  | zero => exact doublesPresent_zero hindex hpresent 0 (Nat.le_refl 0)
  | succ j => exact mul_two_mul_pow index j ▸ h j (by omega)

end Script.Table

namespace Exchange

open Script Script.Machine

variable {H W : Type} {invoke : Invoke H W} {m m₁ m₂ m' : Machine H W} {id : Nat}

/-! ## Reading a list -/

/-- A table is read as a list: it is measured, each of its entries is read, and its border is looked
for. -/
structure ReadsList (invoke : Invoke H W) (id : Nat) (m m₁ m₂ m' : Machine H W) (length : Int)
    (items : List (Int × Datum)) : Prop where
  measured : Yields (lengthOf invoke id) m (.ok length) m₁
  read : Yields ((m₁.tableAt id).entries.mapM (pullItem invoke (depthLimit - 1) length)) m₁
    (.ok items) m₂
  checked : m' = m₂.measure id

/-- Where length functions change no table, the table still holds at the end what it held before, and
each entry has become an item. -/
theorem ReadsList.keeps {length : Int} {found : List (Int × Datum)} (haddr : m.Addressable)
    (hkeep : m.LengthsKeep invoke) (h : ReadsList invoke id m m₁ m₂ m' length found)
    (hpos : 0 < length) :
    ((m₂.tableAt id).array = (m.tableAt id).array ∧
      (m₂.tableAt id).entries = (m.tableAt id).entries) ∧ (m.tableAt id).array.size < 2 ^ 63 ∧
        List.Forall₂ (BecomesItem (depthLimit - 1) length) (m.tableAt id).entries found := by
  obtain ⟨⟨-, hthere⟩, hm₁, hkeeps₁, haddr₁⟩ := lengthOf_spec hkeep .start haddr h.measured
  obtain ⟨hm₂, hkeeps₂, hfound⟩ := Yields.of_mapM Keeps.refl (fun _ _ _ => Keeps.trans)
    (fun entry _ => gives_pullItem (gives_pullTable hkeep _) length entry) ⟨hm₁, haddr₁⟩ h.read
  have hget := getElem?_of_lt (hthere hpos)
  have hsame {m' : Machine H W} (hkeeps : m.Keeps m') :
      (m'.tableAt id).array = (m.tableAt id).array ∧
        (m'.tableAt id).entries = (m.tableAt id).entries := by
    obtain ⟨t, hget', harray, hnodes⟩ := hkeeps id _ hget
    rw [tableAt_of_getElem? hget', Table.entries_eq, Table.entries_eq, Table.nodeEntries, Table.nodeEntries, harray, hnodes]
    exact ⟨rfl, rfl⟩
  exact ⟨hsame (hkeeps₁.trans hkeeps₂), haddr id _ hget, (hsame hkeeps₁).2 ▸ hfound⟩

end Exchange

end Sandbox
