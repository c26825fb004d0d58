import Sandbox.Proofs.Datum.Normal
import Sandbox.Script.Table

/-!
# Borders of lists

A list that ends with null leaves empty slots at the end of its table, and the border that is found there
may be in front of other items. `Datum.border` is this border, and a value is `Datum.Bordered` if nowhere
in it an item stands behind the border of its list. Values in which no list ends with null always are.
-/

namespace Sandbox.Datum

/-- There is null at this place of a list, or no item. -/
def isVacant (items : List Datum) (n : Nat) : Bool := (items.getD (n - 1) .null).isNull

/-- The border that is found in a table with these items in its slots. If the last one is null and the one
in front of it is not, the border is there. If both are null, it is searched for by halving. -/
def border (items : List Datum) : Nat :=
  let size := items.length
  if size > 0 && isVacant items size then
    if size ≥ 2 && !isVacant items (size - 1) then size - 1
    else Script.Table.bisect (isVacant items) 64 0 size
  else size

/-- If the value is a list, its border is zero or all items behind it are null. -/
def EndsAtBorder (d : Datum) : Prop :=
  ∀ items, d = .list items → border items = 0 ∨ ∀ e ∈ presentItems 0 items, e.1 ≤ border items

/-- Every list in the value, at any depth, ends at its border. -/
def Bordered (d : Datum) : Prop := d.Everywhere EndsAtBorder

/-- What is no list and no record has no border. -/
theorem bordered_of_scalar {d : Datum} (hlist : ∀ items, d ≠ .list items)
    (hrecord : ∀ fields, d ≠ .record fields) : d.Bordered := by
  cases d with
  | list items => exact absurd rfl (hlist items)
  | record fields => exact absurd rfl (hrecord fields)
  | _ => exact fun items heq => absurd heq (hlist items)

theorem bordered_null : Bordered .null := bordered_of_scalar (by simp) (by simp)

theorem forall_presentItems_bordered {items : List Datum} (start : Nat) :
    (∀ e ∈ presentItems start items, e.2.Bordered) ↔ EverywhereItems EndsAtBorder items := by
  induction items generalizing start with
  | nil => simp [presentItems, EverywhereItems]
  | cons d rest ih =>
    rw [presentItems, EverywhereItems]
    split
    case isTrue hnull =>
      obtain rfl := isNull_iff.mp hnull
      rw [ih]
      exact ⟨fun h => ⟨bordered_null, h⟩, fun h => h.2⟩
    case isFalse =>
      rw [List.forall_mem_cons, ih]
      rfl

theorem forall_presentFields_bordered {fields : List (String × Datum)} :
    (∀ f ∈ presentFields fields, f.2.Bordered) ↔ EverywhereFields EndsAtBorder fields := by
  rw [everywhereFields_iff]
  constructor
  · intro h f hf
    by_cases hnull : f.2 = .null
    · rw [hnull]
      exact bordered_null
    · exact h f (List.mem_filter.mpr ⟨hf, by simpa [Bool.eq_false_iff] using hnull⟩)
  · exact fun h f hf => h f (List.mem_of_mem_filter hf)

/-- A list ends at its borders if all items do and its own border is no obstacle. -/
theorem bordered_list_iff {items : List Datum} : (Datum.list items).Bordered ↔
    (border items = 0 ∨ ∀ e ∈ presentItems 0 items, e.1 ≤ border items) ∧
      ∀ e ∈ presentItems 0 items, e.2.Bordered := by
  rw [forall_presentItems_bordered]
  constructor
  · exact fun h => ⟨h.1 items rfl, h.2⟩
  · intro h
    refine ⟨fun items' heq => ?_, h.2⟩
    cases heq
    exact h.1

theorem bordered_record_iff {fields : List (String × Datum)} : (Datum.record fields).Bordered ↔
    ∀ f ∈ presentFields fields, f.2.Bordered := by
  rw [forall_presentFields_bordered]
  exact ⟨fun h => h.2, fun h => ⟨by simp [EndsAtBorder], h⟩⟩

/-! ## Lists without nulls at the end -/

theorem le_of_mem_presentItems {items : List Datum} {start : Nat} {e : Nat × Datum}
    (h : e ∈ presentItems start items) : e.1 ≤ start + items.length := by
  induction items generalizing start with
  | nil => cases h
  | cons d rest ih =>
    rw [List.length_cons]
    rw [presentItems] at h
    split at h
    · have hrest := ih h
      omega
    · rcases List.mem_cons.mp h with rfl | h
      · simp
      · have hrest := ih h
        omega

/-- The border of a list that does not end with null is its length. -/
theorem border_eq_length {items : List Datum} (hlast : items.getLast? ≠ some .null) :
    border items = items.length := by
  have hfull (hpos : 0 < items.length) : isVacant items items.length = false := by
    rw [isVacant, Bool.eq_false_iff, ne_eq, isNull_iff]
    intro hnull
    refine hlast ?_
    rw [List.getLast?_eq_getElem?, List.getElem?_eq_getElem (by omega)]
    simpa [show items.length - 1 < items.length by omega] using hnull
  rw [border]
  by_cases hpos : 0 < items.length
  · simp [hfull hpos]
  · simp [hpos]

mutual
/-- A value in which no list ends with null is read back whatever other nulls it holds. -/
theorem Solid.bordered : ∀ {d : Datum}, d.Solid → d.Bordered
  | .null, _ | .bool _, _ | .int _, _ | .float _, _ | .text _, _ =>
    bordered_of_scalar (by simp) (by simp)
  | .list items, h => by
    rw [Solid] at h
    refine ⟨fun items' heq => .inr fun e he => ?_, SolidItems.bordered h.2⟩
    obtain rfl := Datum.list.inj heq
    have hle := le_of_mem_presentItems he
    rwa [border_eq_length h.1, ← Nat.zero_add items.length]
  | .record fields, h => by
    rw [Solid] at h
    exact ⟨by simp [EndsAtBorder], SolidFields.bordered h⟩
  | .foreign _, h => absurd h (by simp [Solid])

theorem SolidItems.bordered : ∀ {items : List Datum}, SolidItems items →
    EverywhereItems EndsAtBorder items
  | [], _ => trivial
  | _ :: _, h => ⟨Solid.bordered h.1, SolidItems.bordered h.2⟩

theorem SolidFields.bordered : ∀ {fields : List (String × Datum)}, SolidFields fields →
    EverywhereFields EndsAtBorder fields
  | [], _ => trivial
  | (_, _) :: _, h => ⟨Solid.bordered h.1, SolidFields.bordered h.2⟩
end

end Sandbox.Datum
