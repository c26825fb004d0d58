import Sandbox.Proofs.Datum.Normal
import Sandbox.Proofs.Exchange.Outcome
import Sandbox.Proofs.Script.Entries

/-!
# Images of plain values

What `Exchange.push` leaves behind: a value that stands for a list is a table with the images of the
items in its slots, and one that stands for a record is a table with the images of the fields that are
not null. `push_image` states that pushing always succeeds on values without foreign parts, that it
adds tables and leaves those that were there, and that its result is an image of the value.
-/

namespace Sandbox
namespace Exchange

open Script

variable {H W : Type}

mutual
/-- In some tables, of which only those with numbers from `low` on matter, a value of a script is an
image of a plain value. -/
inductive Image (tables : Array Table) (low : Nat) : Datum → Value → Prop
  | null : Image tables low .null .nil
  | bool (b : Bool) : Image tables low (.bool b) (.bool b)
  | int (n : Int64) : Image tables low (.int n) (.int n)
  | float (x : Binary64) : Image tables low (.float x) (.float x)
  | text (s : String) : Image tables low (.text s) (.ofString s)
  | list {items : List Datum} {values : List Value} {id : Nat} {t : Table} : low ≤ id →
      tables[id]? = some t → t.HoldsItems values → ItemImages tables low items values →
      Image tables low (.list items) (.table id)
  | record {fields : List (String × Datum)} {values : List (String × Value)} {id capacity : Nat}
      {t : Table} : low ≤ id → tables[id]? = some t → t.HoldsFields capacity values →
      FieldImages tables low (Datum.presentFields fields) values →
      Image tables low (.record fields) (.table id)

/-- Values are images of items, one by one. -/
inductive ItemImages (tables : Array Table) (low : Nat) : List Datum → List Value → Prop
  | nil : ItemImages tables low [] []
  | cons {d : Datum} {v : Value} {items : List Datum} {values : List Value} : Image tables low d v →
      ItemImages tables low items values → ItemImages tables low (d :: items) (v :: values)

/-- Values under the same keys are images of fields, one by one. -/
inductive FieldImages (tables : Array Table) (low : Nat) :
    List (String × Datum) → List (String × Value) → Prop
  | nil : FieldImages tables low [] []
  | cons {key : String} {d : Datum} {v : Value} {fields : List (String × Datum)}
      {values : List (String × Value)} : Image tables low d v →
      FieldImages tables low fields values →
      FieldImages tables low ((key, d) :: fields) ((key, v) :: values)
end

/-- Only null has the image nil. -/
theorem Image.isNil_eq {tables : Array Table} {low : Nat} {d : Datum} {v : Value}
    (h : Image tables low d v) : v.isNil = d.isNull := by
  cases h <;> rfl

/-- Each item has one image. -/
theorem ItemImages.length_eq {tables : Array Table} {low : Nat} :
    ∀ {items : List Datum} {values : List Value}, ItemImages tables low items values →
      values.length = items.length
  | _, _, .nil => rfl
  | _, _, .cons _ hrest => by rw [List.length_cons, List.length_cons, hrest.length_eq]

/-- If the items do not end with null, their images do not end with nil. -/
theorem ItemImages.getLast?_ne {tables : Array Table} {low : Nat} :
    ∀ {items : List Datum} {values : List Value}, ItemImages tables low items values →
      items.getLast? ≠ some .null → values.getLast? ≠ some .nil
  | _, _, .nil, _ => by simp
  | _, _, .cons himage .nil, hlast => by
    intro hnil
    have hisNil := himage.isNil_eq
    rw [Value.isNil_iff.mpr (by simpa using hnil)] at hisNil
    exact hlast (by simpa using Datum.isNull_iff.mp hisNil.symm)
  | _, _, .cons _ (.cons hsecond hrest), hlast => by
    rw [List.getLast?_cons_cons] at hlast ⊢
    exact (ItemImages.cons hsecond hrest).getLast?_ne hlast

/-- The two collections of tables agree from `low` on, up to the end of the first one. -/
def AgreeFrom (low : Nat) (tables tables' : Array Table) : Prop :=
  ∀ id, low ≤ id → id < tables.size → tables'[id]? = tables[id]?

theorem AgreeFrom.getElem? {low id : Nat} {tables tables' : Array Table} {t : Table}
    (h : AgreeFrom low tables tables') (hlow : low ≤ id) (hget : tables[id]? = some t) :
    tables'[id]? = some t := by
  obtain ⟨hlt, -⟩ := Array.getElem?_eq_some_iff.mp hget
  rw [h id hlow hlt, hget]

section Agree

variable {tables tables' : Array Table} {low low' : Nat}

mutual
/-- An image stays one where the tables it is made of stay. -/
theorem Image.agree (hagree : AgreeFrom low' tables tables') (hle : low' ≤ low) :
    ∀ {d : Datum} {v : Value}, Image tables low d v → Image tables' low' d v
  | _, _, .null => .null
  | _, _, .bool b => .bool b
  | _, _, .int n => .int n
  | _, _, .float x => .float x
  | _, _, .text s => .text s
  | _, _, .list hid hget hholds himages =>
    .list (by omega) (hagree.getElem? (by omega) hget) hholds (himages.agree hagree hle)
  | _, _, .record hid hget hholds himages =>
    .record (by omega) (hagree.getElem? (by omega) hget) hholds (himages.agree hagree hle)

/-- Images of items stay where their tables stay. -/
theorem ItemImages.agree (hagree : AgreeFrom low' tables tables') (hle : low' ≤ low) :
    ∀ {items : List Datum} {values : List Value}, ItemImages tables low items values →
      ItemImages tables' low' items values
  | _, _, .nil => .nil
  | _, _, .cons hfirst hrest => .cons (hfirst.agree hagree hle) (hrest.agree hagree hle)

/-- Images of fields stay where their tables stay. -/
theorem FieldImages.agree (hagree : AgreeFrom low' tables tables') (hle : low' ≤ low) :
    ∀ {fields : List (String × Datum)} {values : List (String × Value)},
      FieldImages tables low fields values → FieldImages tables' low' fields values
  | _, _, .nil => .nil
  | _, _, .cons hfirst hrest => .cons (hfirst.agree hagree hle) (hrest.agree hagree hle)
end

end Agree

/-- The two collections of tables agree up to the end of the first one, but for one table. -/
def AgreeExcept (id : Nat) (tables tables' : Array Table) : Prop :=
  ∀ j, j ≠ id → j < tables.size → tables'[j]? = tables[j]?

section AgreeExcept

variable {id : Nat} {tables tables' tables'' : Array Table}

theorem AgreeExcept.from_succ (h : AgreeExcept id tables tables') :
    AgreeFrom (id + 1) tables tables' :=
  fun j hj hlt => h j (by omega) hlt

theorem AgreeExcept.trans (h : AgreeExcept id tables tables') (hsize : tables.size ≤ tables'.size)
    (h' : AgreeExcept id tables' tables'') : AgreeExcept id tables tables'' :=
  fun j hj hlt => (h' j hj (by omega)).trans (h j hj hlt)

theorem AgreeExcept.from_push {t : Table}
    (h : AgreeExcept tables.size (tables.push t) tables') : AgreeFrom 0 tables tables' :=
  fun j _ hlt => by
    rw [h j (by omega) (by rw [Array.size_push]; omega), Array.getElem?_push_lt hlt,
      Array.getElem?_eq_getElem hlt]

theorem agreeExcept_modify (f : Table → Table) : AgreeExcept id tables (tables.modify id f) :=
  fun j hj _ => by rw [Array.getElem?_modify, if_neg (Ne.symm hj)]

theorem getElem?_modify_self {t : Table} (h : tables[id]? = some t) (f : Table → Table) :
    (tables.modify id f)[id]? = some (f t) := by
  rw [Array.getElem?_modify, if_pos rfl, h, Option.map_some]

end AgreeExcept

mutual
/-- Pushing a value without foreign parts adds tables, leaves the others, and gives an image. -/
theorem push_native : ∀ (d : Datum) (m : Machine H W), d.WellFormed → d.Native → d.Addressable →
    ∃ v tables, Yields (push d) m (.ok v) { m with tables } ∧ m.tables.size ≤ tables.size ∧
      AgreeFrom 0 m.tables tables ∧ Image tables m.tables.size d v
  | .null, m, _, _, _ => ⟨_, m.tables, .pure _ m, Nat.le_refl _, fun _ _ _ => rfl, .null⟩
  | .bool b, m, _, _, _ => ⟨_, m.tables, .pure _ m, Nat.le_refl _, fun _ _ _ => rfl, .bool b⟩
  | .int n, m, _, _, _ => ⟨_, m.tables, .pure _ m, Nat.le_refl _, fun _ _ _ => rfl, .int n⟩
  | .float x, m, _, _, _ => ⟨_, m.tables, .pure _ m, Nat.le_refl _, fun _ _ _ => rfl, .float x⟩
  | .text s, m, _, _, _ => ⟨_, m.tables, .pure _ m, Nat.le_refl _, fun _ _ _ => rfl, .text s⟩
  | .list items, m, hform, hnative, haddr => by
    rw [Datum.WellFormed] at hform
    rw [Datum.Addressable] at haddr
    let t := Table.withSizes items.length 0
    obtain ⟨values, tables, t', hyields, hsize, hagree, hget, hholds, himages⟩ :=
      pushItems_native items { m with tables := m.tables.push t } m.tables.size [] t hform hnative.2
        haddr.2 (by simpa using haddr.1) (by simp) (Table.holdsItems_withSizes items.length)
    refine ⟨_, tables, ?_, ?_, ?_, .list (Nat.le_refl _) hget hholds ?_⟩
    · rw [push]
      exact (Yields.lift (run_newTable t)).bind (hyields.bind (Yields.pure _ _))
    · simp only [Array.size_push] at hsize
      omega
    · exact AgreeExcept.from_push hagree
    · exact himages.agree (fun _ _ _ => rfl) (Nat.le_succ _)
  | .record fields, m, hform, hnative, haddr => by
    rw [Datum.WellFormed] at hform
    rw [Datum.Addressable] at haddr
    let t := Table.withSizes 0 fields.length
    have hascending : Named.Ascending fields := List.pairwise_map.mp hform.1
    obtain ⟨values, tables, t', hyields, hsize, hagree, hget, hholds, himages⟩ :=
      pushFields_native fields { m with tables := m.tables.push t } m.tables.size fields.length [] t
        hform.2 hnative.2 haddr (by simpa using hascending.nodup) (by simp) (by simp)
        (Table.holdsFields_withSizes fields.length)
    refine ⟨_, tables, ?_, ?_, ?_, .record (Nat.le_refl _) hget hholds ?_⟩
    · rw [push]
      exact (Yields.lift (run_newTable t)).bind (hyields.bind (Yields.pure _ _))
    · simp only [Array.size_push] at hsize
      omega
    · exact AgreeExcept.from_push hagree
    · exact himages.agree (fun _ _ _ => rfl) (Nat.le_succ _)
  | .foreign type, _, _, hnative, _ => absurd rfl (hnative type)

/-- Items fill the slots that are left in a table. -/
theorem pushItems_native : ∀ (items : List Datum) (m : Machine H W) (id : Nat) (done : List Value)
    (t : Table), Datum.WellFormedItems items → Datum.EverywhereItems Datum.NotForeign items →
    Datum.AddressableItems items → done.length + items.length < 2 ^ 63 → m.tables[id]? = some t →
    t.HoldsItems (done ++ List.replicate items.length .nil) →
    ∃ values tables t', Yields (pushItems id (done.length + 1) items) m (.ok ()) { m with tables } ∧
      m.tables.size ≤ tables.size ∧ AgreeExcept id m.tables tables ∧ tables[id]? = some t' ∧
      t'.HoldsItems (done ++ values) ∧ ItemImages tables (id + 1) items values
  | [], m, id, done, t, _, _, _, _, hget, hholds =>
    ⟨[], m.tables, t, .pure _ m, Nat.le_refl _, fun _ _ _ => rfl, hget, hholds, .nil⟩
  | item :: rest, m, id, done, t, hform, hnative, haddr, hlength, hget, hholds => by
    obtain ⟨hid, -⟩ := Array.getElem?_eq_some_iff.mp hget
    rw [List.length_cons] at hlength
    obtain ⟨v, tables₁, hpush, hsize₁, hagree₁, himage⟩ :=
      push_native item m hform.1 hnative.1 haddr.1
    have hget₁ := hagree₁.getElem? (Nat.zero_le _) hget
    have hholds₁ := hholds.setIndex v (by omega)
    obtain ⟨values, tables₂, t', hyields, hsize₂, hagree₂, hget₂, hholds₂, himages⟩ :=
      pushItems_native rest { m with tables := tables₁.modify id (·.setIndex (done.length + 1) v) } id
        (done ++ [v]) _ hform.2 hnative.2 haddr.2 (by simp; omega) (getElem?_modify_self hget₁ _)
        (by simpa using hholds₁)
    have hagree : AgreeExcept id tables₁ tables₂ :=
      (agreeExcept_modify _).trans (by simp) hagree₂
    refine ⟨v :: values, tables₂, t', ?_, ?_, ?_, hget₂, by simpa using hholds₂, ?_⟩
    · rw [pushItems]
      refine hpush.bind ((Yields.lift (run_modifyTable _)).bind ?_)
      simpa using hyields
    · simp only [Array.size_modify] at hsize₂
      omega
    · exact AgreeExcept.trans (fun j _ hlt => hagree₁ j (Nat.zero_le _) hlt) hsize₁ hagree
    · exact .cons (himage.agree hagree.from_succ (by omega)) himages

/-- Fields of new keys are added to those that a table holds, unless they are null. -/
theorem pushFields_native : ∀ (fields : List (String × Datum)) (m : Machine H W) (id capacity : Nat)
    (done : List (String × Value)) (t : Table), Datum.WellFormedFields fields →
    Datum.EverywhereFields Datum.NotForeign fields → Datum.AddressableFields fields →
    (done.map (·.1) ++ fields.map (·.1)).Nodup → done.length + fields.length ≤ capacity →
    m.tables[id]? = some t → t.HoldsFields capacity done →
    ∃ values tables t', Yields (pushFields id fields) m (.ok ()) { m with tables } ∧
      m.tables.size ≤ tables.size ∧ AgreeExcept id m.tables tables ∧ tables[id]? = some t' ∧
      t'.HoldsFields capacity (done ++ values) ∧
      FieldImages tables (id + 1) (Datum.presentFields fields) values
  | [], m, id, _, done, t, _, _, _, _, _, hget, hholds =>
    ⟨[], m.tables, t, .pure _ m, Nat.le_refl _, fun _ _ _ => rfl, hget, by simpa using hholds, .nil⟩
  | (key, item) :: rest, m, id, capacity, done, t, hform, hnative, haddr, hnodup, hroom, hget,
      hholds => by
    obtain ⟨hid, -⟩ := Array.getElem?_eq_some_iff.mp hget
    rw [List.length_cons] at hroom
    obtain ⟨v, tables₁, hpush, hsize₁, hagree₁, himage⟩ :=
      push_native item m hform.1 hnative.1 haddr.1
    have hget₁ := hagree₁.getElem? (Nat.zero_le _) hget
    have hnew : key ∉ done.map (·.1) := fun hmem =>
      (List.nodup_append.mp hnodup).2.2 _ hmem _ (by simp) rfl
    -- A null field leaves the table as it is, and any other one is added at the end.
    let added := if v.isNil then [] else [(key, v)]
    have hholds₁ : (t.setText key v).HoldsFields capacity (done ++ added) := by
      refine (hholds.setText v hnew (by omega)).of_perm ?_
      by_cases hnil : v.isNil
      · simp [added, hnil]
      · simpa [added, hnil] using (List.perm_append_singleton (key, v) done).symm
    have hadded : (added.map (·.1)).Sublist [key] ∧ added.length ≤ 1 := by
      by_cases hnil : v.isNil <;> simp [added, hnil]
    have hsub : ((done ++ added).map (·.1) ++ rest.map (·.1)).Sublist
        (done.map (·.1) ++ ((key, item) :: rest).map (·.1)) := by
      simpa using (hadded.1.append_right (rest.map (·.1))).append_left (done.map (·.1))
    obtain ⟨values, tables₂, t', hyields, hsize₂, hagree₂, hget₂, hholds₂, himages⟩ :=
      pushFields_native rest { m with tables := tables₁.modify id (·.setText key v) } id capacity
        (done ++ added) _ hform.2 hnative.2 haddr.2 (hnodup.sublist hsub) (by simp; omega)
        (getElem?_modify_self hget₁ _) hholds₁
    have hagree : AgreeExcept id tables₁ tables₂ :=
      (agreeExcept_modify _).trans (by simp) hagree₂
    refine ⟨added ++ values, tables₂, t', ?_, ?_, ?_, hget₂, by simpa using hholds₂, ?_⟩
    · rw [pushFields]
      exact hpush.bind ((Yields.lift (run_modifyTable _)).bind hyields)
    · simp only [Array.size_modify] at hsize₂
      omega
    · exact AgreeExcept.trans (fun j _ hlt => hagree₁ j (Nat.zero_le _) hlt) hsize₁ hagree
    · have hnil := himage.isNil_eq
      rw [Datum.presentFields_cons]
      by_cases hnull : item.isNull
      · simpa [added, hnil, hnull] using himages
      · simpa [added, hnil, hnull] using
          FieldImages.cons (himage.agree hagree.from_succ (by omega)) himages
end

/-- Pushing a solid value gives an image. -/
theorem push_image (d : Datum) (m : Machine H W) (hform : d.WellFormed) (hsolid : d.Solid)
    (haddr : d.Addressable) :
    ∃ v tables, Yields (push d) m (.ok v) { m with tables } ∧ m.tables.size ≤ tables.size ∧
      AgreeFrom 0 m.tables tables ∧ Image tables m.tables.size d v :=
  push_native d m hform hsolid.native haddr

end Exchange
end Sandbox
