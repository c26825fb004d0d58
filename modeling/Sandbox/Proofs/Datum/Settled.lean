import Sandbox.Proofs.Datum.Normal

/-!
# Settled values

A value that has come from a script has a form that no further exchange changes: no list is empty or
ends with null, the fields of a record are in order and not null, and nothing is foreign.
-/

namespace Sandbox.Datum

mutual
/-- The value has a form in which it can have come from a script. -/
def Settled : Datum → Prop
  | .list items => items ≠ [] ∧ items.getLast? ≠ some .null ∧ items.length < 2 ^ 63 ∧
    SettledItems items
  | .record fields => (fields.map (·.1)).Pairwise (· < ·) ∧ SettledFields fields
  | .foreign _ => False
  | _ => True

/-- Every item is settled. -/
def SettledItems : List Datum → Prop
  | [] => True
  | d :: rest => Settled d ∧ SettledItems rest

/-- The value of every field is settled and not null. -/
def SettledFields : List (String × Datum) → Prop
  | [] => True
  | (_, d) :: rest => (d ≠ .null ∧ Settled d) ∧ SettledFields rest
end

theorem settledItems_iff {items : List Datum} : SettledItems items ↔ ∀ d ∈ items, d.Settled := by
  induction items with
  | nil => simp [SettledItems]
  | cons d rest ih => rw [SettledItems, ih, List.forall_mem_cons]

theorem settledFields_iff {fields : List (String × Datum)} :
    SettledFields fields ↔ ∀ f ∈ fields, f.2 ≠ .null ∧ f.2.Settled := by
  induction fields with
  | nil => simp [SettledFields]
  | cons f rest ih => rw [SettledFields, ih, List.forall_mem_cons]

mutual
/-- A settled value can be pushed, and its normal form is the value itself. -/
theorem Settled.fit : ∀ {d : Datum}, d.Settled →
    d.WellFormed ∧ d.Solid ∧ d.Addressable ∧ d.normal = d
  | .null, _ | .bool _, _ | .int _, _ | .float _, _ | .text _, _ =>
    ⟨trivial, trivial, trivial, rfl⟩
  | .list items, h => by
    rw [Settled] at h
    obtain ⟨hne, hlast, hlength, hitems⟩ := h
    obtain ⟨hform, hsolid, haddr, hnormal⟩ := SettledItems.fit hitems
    refine ⟨hform, ⟨hlast, hsolid⟩, ⟨hlength, haddr⟩, ?_⟩
    rw [normal, if_neg (by simpa using hne), hnormal]
  | .record fields, h => by
    rw [Settled] at h
    obtain ⟨hform, hsolid, haddr, hnormal⟩ := SettledFields.fit h.2
    refine ⟨⟨h.1, hform⟩, hsolid, haddr, ?_⟩
    rw [normal, hnormal]
  | .foreign _, h => absurd h (by simp [Settled])

theorem SettledItems.fit : ∀ {items : List Datum}, SettledItems items →
    WellFormedItems items ∧ SolidItems items ∧ AddressableItems items ∧ normalItems items = items
  | [], _ => ⟨trivial, trivial, trivial, rfl⟩
  | d :: rest, h => by
    rw [SettledItems] at h
    obtain ⟨hform, hsolid, haddr, hnormal⟩ := Settled.fit h.1
    obtain ⟨hform', hsolid', haddr', hnormal'⟩ := SettledItems.fit h.2
    exact ⟨⟨hform, hform'⟩, ⟨hsolid, hsolid'⟩, ⟨haddr, haddr'⟩, by rw [normalItems, hnormal, hnormal']⟩

theorem SettledFields.fit : ∀ {fields : List (String × Datum)}, SettledFields fields →
    WellFormedFields fields ∧ SolidFields fields ∧ AddressableFields fields ∧
      normalFields fields = fields
  | [], _ => ⟨trivial, trivial, trivial, rfl⟩
  | (key, d) :: rest, h => by
    rw [SettledFields] at h
    obtain ⟨hform, hsolid, haddr, hnormal⟩ := Settled.fit h.1.2
    obtain ⟨hform', hsolid', haddr', hnormal'⟩ := SettledFields.fit h.2
    refine ⟨⟨hform, hform'⟩, ⟨hsolid, hsolid'⟩, ⟨haddr, haddr'⟩, ?_⟩
    rw [normalFields, if_neg (by simpa using h.1.1), hnormal, hnormal']
end

/-- A bound on the depth of all items bounds the depth of the list. -/
theorem depthItems_le {items : List Datum} {n : Nat} (h : ∀ d ∈ items, d.depth ≤ n) :
    depthItems items ≤ n := by
  induction items with
  | nil => exact Nat.zero_le n
  | cons d rest ih =>
    obtain ⟨hfirst, hrest⟩ := List.forall_mem_cons.mp h
    rw [depthItems]
    exact Nat.max_le.mpr ⟨hfirst, ih hrest⟩

end Sandbox.Datum
