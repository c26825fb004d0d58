import Sandbox.Proofs.Exchange.Image
import Sandbox.Proofs.Script.Run
import Mathlib.Data.List.Perm.Lattice

/-!
# Round trip of plain values

A value that goes to a script and comes back has its normal form. Reading a table follows its image:
each entry stands for one item or field that is not null, and the depth that reading allows is used up
by one with every table. So reading succeeds exactly on values that are not too deep, and what it
gives is the normal form.
-/

namespace Sandbox
namespace Exchange

open Script

variable {H W : Type} {invoke : Invoke H W} {m : Machine H W}

/-- Reading the value gives the normal form of the plain value, unless this one is deeper than reading
allows. -/
def Reads (invoke : Invoke H W) (m : Machine H W) (v : Value) (d : Datum) : Prop :=
  ∀ depth, Yields (pullInner invoke depth v) m
    (if d.depth ≤ depth then .ok d.normal else .error .tooDeep) m

/-- A plain text is read back from its bytes. -/
theorem pullText_toUTF8 (s : String) : pullText s.toUTF8 = .ok s := by
  rw [pullText, Value.decodeText_ofString]
  rfl

/-- The bytes of a plain text stand for this text. -/
theorem scalar_ofString (s : String) : scalar (.ofString s) = .ok (.text s) := by
  rw [Value.ofString, scalar, pullText_toUTF8]
  rfl

/-- A value without parts is read without looking at any table. -/
theorem Reads.of_scalar {v : Value} {d : Datum} (hv : ∀ id, v ≠ .table id) (hscalar : scalar v = .ok d)
    (hdepth : d.depth = 0) (hnormal : d.normal = d) : Reads invoke m v d := by
  intro depth
  have hinner : pullInner invoke depth v = pullTable.liftExcept (scalar v) := by
    cases v <;> first | rfl | exact absurd rfl (hv _)
  rw [hinner, hscalar, if_pos (by omega), hnormal]
  exact Yields.liftExcept _ m

/-! ## Lists -/

/-- What an entry of a list stands for: an item with its index. -/
def ReadsItem (invoke : Invoke H W) (m : Machine H W) (length : Nat) (entry : Value × Value)
    (item : Nat × Datum) : Prop :=
  entry.1 = .int (.ofNat item.1) ∧ 1 ≤ item.1 ∧ item.1 ≤ length ∧ Reads invoke m entry.2 item.2

/-- An entry of a list is read with its index. -/
theorem ReadsItem.yields {length : Nat} {entry : Value × Value} {item : Nat × Datum}
    (h : ReadsItem invoke m length entry item) (hlength : length < 2 ^ 63) (depth : Nat) :
    Yields (pullItem invoke depth length entry) m
      (if item.2.depth ≤ depth then .ok ((item.1 : Int), item.2.normal) else .error .tooDeep) m := by
  obtain ⟨hkey, hpos, hle, hreads⟩ := h
  have hindex : indexOf entry.1 = .ok (item.1 : Int) := by
    rw [hkey, indexOf, Int64.toInt_ofNat_of_lt (by omega)]
  have hinside : ¬((decide ((item.1 : Int) < 1) || decide ((item.1 : Int) > length)) = true) := by
    simp only [Bool.or_eq_true, decide_eq_true_eq]
    omega
  rw [pullItem, hindex]
  refine (Yields.liftExcept _ m).bind ?_
  rw [if_neg hinside]
  exact (hreads depth).bind_if (Yields.pure _ m)

/-- Filling the slots behind the first ones with the items that are not null gives all items. -/
theorem foldl_presentItems (done items : List Datum) :
    ((Datum.presentItems done.length items).map fun e => ((e.1 : Int), e.2.normal)).foldl
      (fun (acc : Array Datum) e => acc.setIfInBounds (e.1.toNat - 1) e.2)
      (done ++ List.replicate items.length Datum.null).toArray =
    (done ++ Datum.normalItems items).toArray := by
  induction items generalizing done with
  | nil => rfl
  | cons d rest ih =>
    have hnext (e : Datum) : done ++ e :: List.replicate rest.length Datum.null =
        (done ++ [e]) ++ List.replicate rest.length Datum.null := by simp
    rw [Datum.presentItems, Datum.normalItems, List.length_cons, List.replicate_succ]
    split
    case isTrue hnull =>
      obtain rfl := Datum.isNull_iff.mp hnull
      have hrest := ih (done ++ [.null])
      rw [List.length_append, List.length_singleton] at hrest
      rw [hnext, hrest]
      simp [Datum.normal]
    case isFalse =>
      have hrest := ih (done ++ [d.normal])
      rw [List.length_append, List.length_singleton] at hrest
      rw [List.map_cons, List.foldl_cons, List.setIfInBounds_toArray]
      simp only [Int.toNat_natCast, Nat.add_sub_cancel, List.set_append_right _ _ (Nat.le_refl _),
        Nat.sub_self, List.set_cons_zero]
      rw [hnext, hrest]
      simp

/-- The items of a list are put in their places. -/
theorem listItems_presentItems (items : List Datum) :
    listItems items.length ((Datum.presentItems 0 items).map fun e => ((e.1 : Int), e.2.normal)) =
      Datum.normalItems items := by
  have hfold := foldl_presentItems [] items
  rw [List.nil_append, List.nil_append] at hfold
  rw [listItems, ← List.toArray_replicate]
  exact congrArg Array.toList hfold

/-- A table that says the right length gives a list. -/
theorem Yields.makeList {id length : Nat} {t : Table} (hget : m.tables[id]? = some t)
    (hlength : t.length = (length, t)) (items : List (Int × Datum)) :
    Yields (makeList id length items) m (.ok (.list (listItems length items))) m := by
  refine (Yields.lift (run_rawLength hget hlength)).bind ?_
  rw [if_neg (by omega)]
  exact Yields.pure _ m

/-- The image of a list is read as a list, and that of an empty one as an empty record. -/
theorem Reads.list {items : List Datum} {values : List Value} {id : Nat} {t : Table}
    (hget : m.tables[id]? = some t) (hholds : t.HoldsItems values)
    (hlast : values.getLast? ≠ some .nil) (hsame : values.length = items.length)
    (hlength : items.length < 2 ^ 63)
    (hentries : List.Forall₂ (ReadsItem invoke m items.length) (Table.slotEntries 0 values)
      (Datum.presentItems 0 items)) : Reads invoke m (.table id) (.list items) := by
  intro depth
  have hmeasure : t.length = (items.length, t) := hsame ▸ hholds.length_eq hlast
  change Yields (pullTable invoke depth id) m _ m
  cases depth with
  | zero =>
    rw [if_neg (by simp [Datum.depth])]
    exact Yields.throw _ m
  | succ depth =>
    rw [pullTable_succ]
    refine (Yields.lengthOf invoke hget hholds.metatable_eq hmeasure).bind ?_
    refine (Yields.lift (run_table hget)).bind ?_
    rw [hholds.entries_eq]
    by_cases hempty : items = []
    · subst hempty
      obtain rfl : values = [] := List.length_eq_zero_iff.mp hsame
      rw [if_neg (by simp), if_pos (by simp [Datum.depth, Datum.depthItems])]
      exact Yields.pure _ m
    · have hpos : 0 < items.length := List.length_pos_iff.mpr hempty
      have hdepth : (Datum.list items).depth ≤ depth + 1 ↔
          ∀ e ∈ Datum.presentItems 0 items, e.2.depth ≤ depth := by
        rw [Datum.forall_presentItems_depth, Datum.depth]
        omega
      have hread := Yields.mapM (fun e => e.2.depth ≤ depth) hentries
        fun _ _ h => h.yields hlength depth
      simp only [← hdepth] at hread
      rw [if_pos (by omega)]
      refine hread.bind_if ?_
      rw [Datum.normal, if_neg (by simpa using hempty), ← listItems_presentItems]
      exact Yields.makeList hget hmeasure _

/-! ## Records -/

/-- What an entry of a record stands for: a field. -/
def ReadsField (invoke : Invoke H W) (m : Machine H W) (entry : Value × Value)
    (field : String × Datum) : Prop :=
  entry.1 = .ofString field.1 ∧ Reads invoke m entry.2 field.2

/-- An entry of a record is read with its key. -/
theorem ReadsField.yields {entry : Value × Value} {field : String × Datum}
    (h : ReadsField invoke m entry field) (depth : Nat) :
    Yields (pullField invoke depth entry) m
      (if field.2.depth ≤ depth then .ok (field.1, field.2.normal) else .error .tooDeep) m := by
  obtain ⟨hkey, hreads⟩ := h
  have htext : keyText entry.1 = .ok field.1 := by
    rw [hkey, Value.ofString, keyText, pullText_toUTF8]
  rw [pullField, htext]
  exact (Yields.liftExcept _ m).bind ((hreads depth).bind_if (Yields.pure _ m))

/-- The image of a record is read as a record, whatever order its entries come in. -/
theorem Reads.record {fields : List (String × Datum)} {values : List (String × Value)}
    {id capacity : Nat} {t : Table} (hget : m.tables[id]? = some t)
    (hholds : t.HoldsFields capacity values) (hascending : Named.Ascending fields)
    (hentries : List.Forall₂ (ReadsField invoke m)
      (values.map fun e => (Value.ofString e.1, e.2)) (Datum.presentFields fields)) :
    Reads invoke m (.table id) (.record fields) := by
  intro depth
  change Yields (pullTable invoke depth id) m _ m
  cases depth with
  | zero =>
    rw [if_neg (by simp [Datum.depth])]
    exact Yields.throw _ m
  | succ depth =>
    obtain ⟨present, hentries, hperm⟩ := List.perm_comp_forall₂ hholds.entries_perm hentries
    have hdepth : (Datum.record fields).depth ≤ depth + 1 ↔ ∀ f ∈ present, f.2.depth ≤ depth := by
      have hpresent : (∀ f ∈ present, f.2.depth ≤ depth) ↔ Datum.depthFields fields ≤ depth := by
        simp only [hperm.mem_iff, Datum.forall_presentFields_depth]
      rw [hpresent, Datum.depth]
      omega
    have hread := Yields.mapM (fun f => f.2.depth ≤ depth) hentries
      fun _ _ h => h.yields depth
    rw [pullTable_succ]
    refine (Yields.lengthOf invoke hget hholds.metatable_eq hholds.length_eq).bind ?_
    refine (Yields.lift (run_table hget)).bind ?_
    rw [if_neg (by simp)]
    have hfields : Datum.ofFields (present.map fun f => (f.1, f.2.normal)) =
        (Datum.record fields).normal := by
      rw [Datum.ofFields, Datum.normal]
      refine congrArg Datum.record (Named.ofList_eq_of_perm ?_ (Datum.ascending_normalFields hascending))
      rw [Datum.normalFields_eq_map]
      exact hperm.map _
    simp only [← hdepth] at hread
    rw [← hfields]
    exact hread.bind_if (Yields.pure _ m)

/-! ## All values -/

mutual
/-- The image of a value that is not null is read as this value. -/
theorem Image.reads {low : Nat} : ∀ {d : Datum} {v : Value}, Image m.tables low d v → d.WellFormed →
    d.Solid → d.Addressable → d.isNull = false → Reads invoke m v d
  | _, _, .null, _, _, _, hnull => absurd hnull (by decide)
  | _, _, .bool _, _, _, _, _ => .of_scalar (by simp) rfl rfl rfl
  | _, _, .int _, _, _, _, _ => .of_scalar (by simp) rfl rfl rfl
  | _, _, .float _, _, _, _, _ => .of_scalar (by simp) rfl rfl rfl
  | _, _, .text s, _, _, _, _ => .of_scalar (by simp [Value.ofString]) (scalar_ofString s) rfl rfl
  | _, _, .list _ hget hholds himages, hform, hsolid, haddr, _ => by
    rw [Datum.WellFormed] at hform
    rw [Datum.Solid] at hsolid
    rw [Datum.Addressable] at haddr
    exact .list hget hholds (himages.getLast?_ne hsolid.1) himages.length_eq haddr.1
      (himages.reads 0 _ hform hsolid.2 haddr.2 (by omega))
  | _, _, .record _ hget hholds himages, hform, hsolid, haddr, _ => by
    rw [Datum.WellFormed] at hform
    rw [Datum.Solid] at hsolid
    rw [Datum.Addressable] at haddr
    have hascending : Named.Ascending _ := List.pairwise_map.mp hform.1
    refine .record hget hholds hascending (himages.reads fun f hf => ?_)
    obtain ⟨hmem, hnull⟩ := List.mem_filter.mp hf
    exact ⟨Datum.wellFormedFields_iff.mp hform.2 f hmem, Datum.solidFields_iff.mp hsolid f hmem,
      Datum.addressableFields_iff.mp haddr f hmem, by simpa using hnull⟩

/-- The images of items are read, each with its index, as those items that are not null. -/
theorem ItemImages.reads {low : Nat} : ∀ {items : List Datum} {values : List Value} (start length : Nat),
    ItemImages m.tables low items values → Datum.WellFormedItems items → Datum.SolidItems items →
    Datum.AddressableItems items → start + items.length ≤ length →
    List.Forall₂ (ReadsItem invoke m length) (Table.slotEntries start values)
      (Datum.presentItems start items)
  | _, _, _, _, .nil, _, _, _, _ => .nil
  | _, _, start, length, .cons himage hrest, hform, hsolid, haddr, hle => by
    rw [List.length_cons] at hle
    have htail := hrest.reads (start + 1) length hform.2 hsolid.2 haddr.2 (by omega)
    rw [Table.slotEntries, Datum.presentItems, himage.isNil_eq]
    split
    case isTrue => exact htail
    case isFalse hnull =>
      have hreads := himage.reads hform.1 hsolid.1 haddr.1 (Bool.eq_false_iff.mpr hnull)
      exact .cons ⟨rfl, by omega, by omega, hreads⟩ htail

/-- The images of fields that are not null are read as these fields. -/
theorem FieldImages.reads {low : Nat} :
    ∀ {fields : List (String × Datum)} {values : List (String × Value)},
    FieldImages m.tables low fields values →
    (∀ f ∈ fields, f.2.WellFormed ∧ f.2.Solid ∧ f.2.Addressable ∧ f.2.isNull = false) →
    List.Forall₂ (ReadsField invoke m) (values.map fun e => (Value.ofString e.1, e.2)) fields
  | _, _, .nil, _ => .nil
  | _, _, .cons himage hrest, hfields => by
    obtain ⟨⟨hform, hsolid, haddr, hnull⟩, hothers⟩ := List.forall_mem_cons.mp hfields
    exact .cons ⟨rfl, himage.reads hform hsolid haddr hnull⟩ (hrest.reads hothers)
end

/-- As an argument an image is read as it is read in a table, and nil is read as null. -/
theorem Image.pullArgument_eq {tables : Array Table} {low : Nat} {d : Datum} {v : Value}
    (h : Image tables low d v) (invoke : Invoke H W) :
    pullArgument invoke v = if d.isNull then pure .null else pullInner invoke depthLimit v := by
  cases h
  case text s =>
    rw [pullArgument, pullInner, scalar_ofString]
    · rfl
    all_goals simp [Value.ofString]
  all_goals rfl

/-- A value that goes to a script as an argument and comes back has its normal form, if there are at
most 200 lists and records inside one another; else reading it fails, as it is too deep. -/
theorem push_pullArguments (d : Datum) (hform : d.WellFormed) (hsolid : d.Solid)
    (haddr : d.Addressable) (invoke : Invoke H W) (m : Machine H W) :
    ∃ v tables, Yields (push d) m (.ok v) { m with tables } ∧
      Yields (pullArguments invoke [v]) { m with tables }
        (if d.depth ≤ 200 then .ok [d.normal] else .error .tooDeep) { m with tables } := by
  obtain ⟨v, tables, hpush, -, -, himage⟩ := push_image d m hform hsolid haddr
  refine ⟨v, tables, hpush, ?_⟩
  have hargument : Yields (pullArgument invoke v) { m with tables }
      (if d.depth ≤ 200 then .ok d.normal else .error .tooDeep) { m with tables } := by
    rw [himage.pullArgument_eq]
    split
    case isTrue hnull =>
      obtain rfl := Datum.isNull_iff.mp hnull
      exact Yields.pure _ _
    case isFalse hnull =>
      exact Image.reads himage hform hsolid haddr (Bool.eq_false_iff.mpr hnull) depthLimit
  rw [pullArguments, List.mapM_cons]
  exact hargument.bind_if ((Yields.pure _ _).bind (Yields.pure _ _))

/-- A hole in a list stays, while a null field goes and an empty list comes back as a record. -/
theorem push_pullArguments_of_hole :
    let list : Datum := .list [.int 1, .null, .text "x"]
    let d : Datum := .record [("1", list), ("2", .null), ("3", .list [])]
    let m : Machine Empty Unit := { world := () }
    (d.WellFormed ∧ d.Solid ∧ d.Addressable) ∧
      ∃ v tables, Yields (push d) m (.ok v) { m with tables } ∧
        Yields (pullArguments (fun _ _ _ => pure []) [v]) { m with tables }
          (.ok [.record [("1", list), ("3", .record [])]]) { m with tables } := by
  intro list d m
  have hkeys : ["1", "2", "3"].Pairwise (· < ·) := by decide
  have hform : d.WellFormed := by
    simp only [d, list, Datum.WellFormed, Datum.WellFormedFields, Datum.WellFormedItems, and_true]
    exact hkeys
  have hsolid : d.Solid := by simp [d, list, Datum.Solid, Datum.SolidFields, Datum.SolidItems]
  have haddr : d.Addressable := by
    simp [d, list, Datum.Addressable, Datum.AddressableFields, Datum.AddressableItems]
  exact ⟨⟨hform, hsolid, haddr⟩, push_pullArguments d hform hsolid haddr (fun _ _ _ => pure []) m⟩

end Exchange
end Sandbox
