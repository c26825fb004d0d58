import Sandbox.Datum.Basic
import Sandbox.Proofs.Named
import Mathlib.Data.List.Forall2

/-!
# Normal forms of plain values

Scripts know only tables, so a value may come back from them in another form than it had: an empty
list as an empty record, and a record without its null fields. `Datum.normal` is this form. The values
for which it is all that changes are the `Datum.Solid` ones, in which no list ends with null.
-/

namespace Sandbox.Datum

/-- The value is null. -/
def isNull : Datum → Bool
  | .null => true
  | _ => false

@[simp] theorem isNull_iff {d : Datum} : d.isNull = true ↔ d = .null := by
  cases d <;> simp [isNull]

mutual
/-- The value in which every empty list is an empty record and no record has a null field. -/
def normal : Datum → Datum
  | .list items => if items.isEmpty then .record [] else .list (normalItems items)
  | .record fields => .record (normalFields fields)
  | d => d

/-- The normal forms of some items. -/
def normalItems : List Datum → List Datum
  | [] => []
  | d :: rest => normal d :: normalItems rest

/-- The fields that are not null, with the normal forms of their values. -/
def normalFields : List (String × Datum) → List (String × Datum)
  | [] => []
  | (key, d) :: rest => if d.isNull then normalFields rest else (key, normal d) :: normalFields rest
end

mutual
/-- Nothing in the value is foreign, and every list in it, at any depth, is empty or ends with
something other than null. -/
def Solid : Datum → Prop
  | .list items => items.getLast? ≠ some .null ∧ SolidItems items
  | .record fields => SolidFields fields
  | .foreign _ => False
  | _ => True

/-- Every item is solid. -/
def SolidItems : List Datum → Prop
  | [] => True
  | d :: rest => Solid d ∧ SolidItems rest

/-- The value of every field is solid. -/
def SolidFields : List (String × Datum) → Prop
  | [] => True
  | (_, d) :: rest => Solid d ∧ SolidFields rest
end

mutual
/-- The positions in every list, at any depth, are integers of 64 bits, as in any memory. -/
def Addressable : Datum → Prop
  | .list items => items.length < 2 ^ 63 ∧ AddressableItems items
  | .record fields => AddressableFields fields
  | _ => True

/-- Every item is addressable. -/
def AddressableItems : List Datum → Prop
  | [] => True
  | d :: rest => Addressable d ∧ AddressableItems rest

/-- The value of every field is addressable. -/
def AddressableFields : List (String × Datum) → Prop
  | [] => True
  | (_, d) :: rest => Addressable d ∧ AddressableFields rest
end

mutual
/-- The property holds of the value and of all values in it. -/
def Everywhere (p : Datum → Prop) : Datum → Prop
  | .list items => p (.list items) ∧ EverywhereItems p items
  | .record fields => p (.record fields) ∧ EverywhereFields p fields
  | d => p d

/-- The property holds everywhere in every item. -/
def EverywhereItems (p : Datum → Prop) : List Datum → Prop
  | [] => True
  | d :: rest => Everywhere p d ∧ EverywhereItems p rest

/-- The property holds everywhere in the value of every field. -/
def EverywhereFields (p : Datum → Prop) : List (String × Datum) → Prop
  | [] => True
  | (_, d) :: rest => Everywhere p d ∧ EverywhereFields p rest
end

/-- The value is no foreign one. -/
def NotForeign (d : Datum) : Prop := ∀ type, d ≠ .foreign type

/-- The value is no number in floating point. -/
def NotFloat (d : Datum) : Prop := ∀ x, d ≠ .float x

/-- Nothing in the value is foreign. -/
def Native (d : Datum) : Prop := d.Everywhere NotForeign

/-- Nothing in the value is a number in floating point. -/
def FloatFree (d : Datum) : Prop := d.Everywhere NotFloat

mutual
/-- Nothing in a solid value is foreign. -/
theorem Solid.native : ∀ {d : Datum}, d.Solid → d.Native
  | .null, _ | .bool _, _ | .int _, _ | .float _, _ | .text _, _ => fun _ heq => nomatch heq
  | .list _, h => by
    rw [Solid] at h
    exact ⟨fun _ heq => (nomatch heq), SolidItems.native h.2⟩
  | .record _, h => by
    rw [Solid] at h
    exact ⟨fun _ heq => (nomatch heq), SolidFields.native h⟩
  | .foreign _, h => absurd h (by simp [Solid])

theorem SolidItems.native : ∀ {items : List Datum}, SolidItems items →
    EverywhereItems NotForeign items
  | [], _ => trivial
  | _ :: _, h => ⟨Solid.native h.1, SolidItems.native h.2⟩

theorem SolidFields.native : ∀ {fields : List (String × Datum)}, SolidFields fields →
    EverywhereFields NotForeign fields
  | [], _ => trivial
  | (_, _) :: _, h => ⟨Solid.native h.1, SolidFields.native h.2⟩
end

theorem wellFormedItems_iff {items : List Datum} :
    WellFormedItems items ↔ ∀ d ∈ items, d.WellFormed := by
  induction items with
  | nil => simp [WellFormedItems]
  | cons d rest ih => rw [WellFormedItems, ih, List.forall_mem_cons]

theorem addressableItems_iff {items : List Datum} :
    AddressableItems items ↔ ∀ d ∈ items, d.Addressable := by
  induction items with
  | nil => simp [AddressableItems]
  | cons d rest ih => rw [AddressableItems, ih, List.forall_mem_cons]

theorem everywhereItems_iff {p : Datum → Prop} {items : List Datum} :
    EverywhereItems p items ↔ ∀ d ∈ items, d.Everywhere p := by
  induction items with
  | nil => simp [EverywhereItems]
  | cons d rest ih => rw [EverywhereItems, ih, List.forall_mem_cons]

theorem everywhereFields_iff {p : Datum → Prop} {fields : List (String × Datum)} :
    EverywhereFields p fields ↔ ∀ f ∈ fields, f.2.Everywhere p := by
  induction fields with
  | nil => simp [EverywhereFields]
  | cons f rest ih => rw [EverywhereFields, ih, List.forall_mem_cons]

theorem wellFormedFields_iff {fields : List (String × Datum)} :
    WellFormedFields fields ↔ ∀ f ∈ fields, f.2.WellFormed := by
  induction fields with
  | nil => simp [WellFormedFields]
  | cons f rest ih => rw [WellFormedFields, ih, List.forall_mem_cons]

theorem solidFields_iff {fields : List (String × Datum)} :
    SolidFields fields ↔ ∀ f ∈ fields, f.2.Solid := by
  induction fields with
  | nil => simp [SolidFields]
  | cons f rest ih => rw [SolidFields, ih, List.forall_mem_cons]

theorem addressableFields_iff {fields : List (String × Datum)} :
    AddressableFields fields ↔ ∀ f ∈ fields, f.2.Addressable := by
  induction fields with
  | nil => simp [AddressableFields]
  | cons f rest ih => rw [AddressableFields, ih, List.forall_mem_cons]

/-- The fields that are not null. -/
def presentFields (fields : List (String × Datum)) : List (String × Datum) :=
  fields.filter fun f => !f.2.isNull

theorem presentFields_cons (f : String × Datum) (rest : List (String × Datum)) :
    presentFields (f :: rest) =
      if f.2.isNull then presentFields rest else f :: presentFields rest := by
  rw [presentFields, presentFields, List.filter_cons]
  cases f.2.isNull <;> rfl

/-- The items that are not null, each with its index; the first index is the one behind `start`. -/
def presentItems : Nat → List Datum → List (Nat × Datum)
  | _, [] => []
  | start, d :: rest =>
    if d.isNull then presentItems (start + 1) rest
    else (start + 1, d) :: presentItems (start + 1) rest

theorem normalFields_eq_map (fields : List (String × Datum)) :
    normalFields fields = (presentFields fields).map fun f => (f.1, normal f.2) := by
  induction fields with
  | nil => rfl
  | cons f rest ih =>
    rw [normalFields, ih, presentFields_cons]
    split <;> rfl

/-- The fields of a normal form stand in the order of the fields. -/
theorem ascending_normalFields {fields : List (String × Datum)} (h : Named.Ascending fields) :
    Named.Ascending (normalFields fields) := by
  rw [normalFields_eq_map, Named.Ascending, List.pairwise_map]
  exact h.filter _

/-- A depth bounds the depth of all fields. -/
theorem depthFields_le_iff {fields : List (String × Datum)} {n : Nat} :
    depthFields fields ≤ n ↔ ∀ f ∈ fields, f.2.depth ≤ n := by
  induction fields with
  | nil => simp [depthFields]
  | cons f rest ih => rw [depthFields, Nat.max_le, ih, List.forall_mem_cons]

/-- Null fields have no depth. -/
theorem forall_presentFields_depth {fields : List (String × Datum)} {n : Nat} :
    (∀ f ∈ presentFields fields, f.2.depth ≤ n) ↔ depthFields fields ≤ n := by
  rw [depthFields_le_iff]
  constructor
  · intro h f hf
    by_cases hnull : f.2 = .null
    · simp [hnull, depth]
    · exact h f (List.mem_filter.mpr ⟨hf, by simpa [Bool.eq_false_iff] using hnull⟩)
  · exact fun h f hf => h f (List.mem_of_mem_filter hf)

/-- Null items have no depth. -/
theorem forall_presentItems_depth {items : List Datum} {n : Nat} (start : Nat) :
    (∀ f ∈ presentItems start items, f.2.depth ≤ n) ↔ depthItems items ≤ n := by
  induction items generalizing start with
  | nil => simp [presentItems, depthItems]
  | cons d rest ih =>
    rw [presentItems, depthItems, Nat.max_le]
    split
    case isTrue hnull =>
      have hd : d.depth = 0 := by rw [isNull_iff.mp hnull]; rfl
      rw [ih, hd]
      simp
    case isFalse => rw [List.forall_mem_cons, ih]

end Sandbox.Datum
