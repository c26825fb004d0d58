import Sandbox.Proofs.Datum.Border
import Sandbox.Proofs.Exchange.Measure
import Sandbox.Proofs.Exchange.RoundTrip

/-!
# Reading what has been pushed

What has been pushed is read with a result exactly if every list in it ends at its border. Reading changes
the tables only by what they remember of their borders, and the same borders are found again: tables that
have been measured so are those that remain.
-/

namespace Sandbox

namespace Exchange

open Script Script.Machine

variable {H W : Type} {α β γ : Type} {invoke : Invoke H W} {m₀ m m' : Machine H W}

/-- The slots of the items that are null are empty. -/
theorem ItemImages.slotIsEmpty {tables : Array Table} {low : Nat} {items : List Datum}
    {values : List Value} {t : Table} (h : ItemImages tables low items values)
    (hholds : t.HoldsItems values) (n : Nat) : t.slotIsEmpty n = Datum.isVacant items n := by
  have hget : ∀ (items : List Datum) (values : List Value), ItemImages tables low items values →
      ∀ i, (values.getD i .nil).isNil = (items.getD i .null).isNull := by
    intro items
    induction items with
    | nil =>
      intro values h i
      cases h
      rfl
    | cons d items ih =>
      intro values h i
      cases h with
      | cons hfirst hrest =>
        cases i with
        | zero => simpa using hfirst.isNil_eq
        | succ i => simpa using ih _ hrest i
  rw [Table.slotIsEmpty, hholds.array_eq, Datum.isVacant, ← hget items values h]
  simp [Array.getD_eq_getD_getElem?]

/-- The table of a list finds the border of the list. -/
theorem ItemImages.length_fst {tables : Array Table} {low : Nat} {items : List Datum}
    {values : List Value} {t : Table} (h : ItemImages tables low items values)
    (hholds : t.HoldsItems values) : t.length.1 = Datum.border items := by
  have hslot : t.slotIsEmpty = Datum.isVacant items := funext (h.slotIsEmpty hholds)
  have hsize : t.array.size = items.length := by simp [hholds.array_eq, h.length_eq]
  have hborder : t.borderInNodes = items.length := by
    simp [Table.borderInNodes, hholds.nodes_eq, hsize]
  rw [Table.length, Datum.border, hslot, hholds.limit_eq, hsize, h.length_eq, hborder]
  dsimp only
  split
  · rfl
  · simp

/-! ## Machines that have been measured -/

/-- Every steady table is as it was, or remembers where its border has been found. -/
def Remains (m₀ m : Machine H W) : Prop :=
  ∀ (id : Nat) (t : Table), m₀.tables[id]? = some t → t.Steady →
    m.tables[id]? = some t ∨ m.tables[id]? = some t.length.2

theorem Remains.refl (m : Machine H W) : Remains m m := fun _ _ hget _ => .inl hget

theorem Remains.measure (h : Remains m₀ m) (id : Nat) : Remains m₀ (m.measure id) := by
  intro other t hget hsteady
  have hother := h other t hget hsteady
  simp only [Machine.measure, Array.getElem?_modify]
  split
  · refine .inr ?_
    rcases hother with hsame | hsame
    · rw [hsame, Option.map_some]
    · rw [hsame, Option.map_some, hsteady]
  · exact hother

/-- A steady table that remains has the length it had, and holds what it held. -/
theorem Remains.exists_table {id : Nat} {t : Table} (h : Remains m₀ m)
    (hget : m₀.tables[id]? = some t) (hsteady : t.Steady) :
    ∃ t', m.tables[id]? = some t' ∧ t'.length.1 = t.length.1 ∧ t'.metatable = t.metatable ∧
      t'.entries = t.entries := by
  rcases h id t hget hsteady with hsame | hsame
  · exact ⟨t, hsame, rfl, rfl, rfl⟩
  · obtain ⟨limit, hlimit⟩ := t.length_snd
    refine ⟨t.length.2, hsame, by rw [hsteady], by rw [hlimit], ?_⟩
    rw [hlimit, Table.entries_eq, Table.entries_eq]
    rfl

/-! ## Exchanges that end -/

/-- On every machine on which the tables remain the exchange ends and lets them remain, with a result
exactly on this condition. -/
def Ends (m₀ : Machine H W) (act : Exchanging H W α) (good : Prop) : Prop :=
  ∀ m, Remains m₀ m → ∃ r m', Yields act m r m' ∧ Remains m₀ m' ∧ ((∃ a, r = .ok a) ↔ good)

theorem Ends.pure (a : α) : Ends m₀ (Pure.pure a : Exchanging H W α) True :=
  fun m hm => ⟨.ok a, m, .pure a m, hm, by simp⟩

theorem Ends.throw (e : Error) : Ends m₀ (MonadExcept.throw e : Exchanging H W α) False :=
  fun m hm => ⟨.error e, m, .throw e m, hm, by simp⟩

theorem Ends.of_iff {act : Exchanging H W α} {good good' : Prop} (h : Ends m₀ act good)
    (hiff : good ↔ good') : Ends m₀ act good' := by
  rwa [propext hiff] at h

theorem Ends.bind {act : Exchanging H W α} {next : α → Exchanging H W β} {good good' : Prop}
    (h : Ends m₀ act good) (hnext : ∀ a, Ends m₀ (next a) good') :
    Ends m₀ (act >>= next) (good ∧ good') := by
  intro m hm
  obtain ⟨r, m₁, hact, hm₁, hgood⟩ := h m hm
  cases r with
  | error e => exact ⟨.error e, m₁, hact.bind_error, hm₁, by simp [← hgood]⟩
  | ok a =>
    obtain ⟨r, m₂, hrest, hm₂, hgood'⟩ := hnext a m₁ hm₁
    exact ⟨r, m₂, hact.bind hrest, hm₂, by simp [hgood', ← hgood]⟩

/-- Exchanges for the items of a list end with results on all conditions together. -/
theorem Ends.mapM {f : α → Exchanging H W β} {R : α → γ → Prop} (good : γ → Prop) {as : List α}
    {cs : List γ} (hrel : List.Forall₂ R as cs)
    (hstep : ∀ a, ∀ c ∈ cs, R a c → Ends m₀ (f a) (good c)) :
    Ends m₀ (as.mapM f) (∀ c ∈ cs, good c) := by
  induction hrel with
  | nil => exact (Ends.pure []).of_iff (by simp)
  | cons hac _ ih =>
    rw [List.mapM_cons]
    have hfirst := hstep _ _ List.mem_cons_self hac
    have hrest := ih fun a c hc => hstep a c (List.mem_cons_of_mem _ hc)
    refine (hfirst.bind fun b => hrest.bind fun bs => Ends.pure (b :: bs)).of_iff ?_
    rw [and_true, List.forall_mem_cons]

/-! ## Reading one table -/

/-- A table without a metatable is measured by its border. -/
theorem lengthOf_of_plain (invoke : Invoke H W) {id : Nat} {t : Table}
    (h : m.tables[id]? = some t) (hmeta : t.metatable = none) :
    Yields (lengthOf invoke id) m (.ok (t.length.1 : Int)) (m.measure id) := by
  refine (Yields.lift (run_table h)).bind ?_
  refine (Yields.lift (run_guarded invoke (a := (t.length.1 : Int)) ?_)).bind (Yields.pure _ _)
  rw [if_pos (by simp [hmeta])]
  have hraw := run_rawLength_measure m id
  rw [tableAt_of_getElem? h] at hraw
  change EStateM.bind (Run.rawLength id) _ m = _
  simp only [EStateM.bind, hraw]
  rfl

/-- A list as long as its table says is made, since the table says so again. -/
theorem Ends.makeList {id : Nat} {t : Table} (hget : m₀.tables[id]? = some t) (hsteady : t.Steady)
    (found : List (Int × Datum)) :
    Ends m₀ (makeList id t.length.1 found : Exchanging H W Datum) True := by
  intro m hm
  obtain ⟨t', hget', hlength, -⟩ := hm.exists_table hget hsteady
  have hheld : (t.length.1 : Int) ≤ held m id found := by
    rw [held, tableAt_of_getElem? hget', hlength]
    omega
  exact ⟨_, _, yields_makeList_iff.mpr ⟨hheld, rfl, rfl⟩, hm.measure id, by simp⟩

/-- Reading a steady table ends with a result if all its entries can be read as items or, if it has no
length, as fields. -/
theorem Ends.pullTable {id depth : Nat} {t : Table} {good : Prop} (hget : m₀.tables[id]? = some t)
    (hsteady : t.Steady) (hmeta : t.metatable = none)
    (hitems : 0 < t.length.1 → Ends m₀ (t.entries.mapM (pullItem invoke depth t.length.1)) good)
    (hfields : t.length.1 = 0 → Ends m₀ (t.entries.mapM (pullField invoke depth)) good) :
    Ends m₀ (pullTable invoke (depth + 1) id) good := by
  intro m hm
  obtain ⟨t₁, hget₁, hlength₁, hmeta₁, -⟩ := hm.exists_table hget hsteady
  have hmeasure := lengthOf_of_plain invoke hget₁ (hmeta₁.trans hmeta)
  rw [hlength₁] at hmeasure
  have hm₁ := hm.measure id
  obtain ⟨t₂, hget₂, -, -, hentries⟩ := hm₁.exists_table hget hsteady
  have htable := Yields.lift (run_table hget₂)
  rw [pullTable_succ]
  by_cases hpos : 0 < t.length.1
  · obtain ⟨r, m₂, hread, hm₂, hgood⟩ :=
      (hitems hpos).bind (fun found => Ends.makeList hget hsteady found) _ hm₁
    refine ⟨r, m₂, hmeasure.bind (htable.bind ?_), hm₂, by rw [hgood, and_true]⟩
    rwa [if_pos (by omega), hentries]
  · obtain ⟨r, m₂, hread, hm₂, hgood⟩ :=
      (hfields (by omega)).bind (fun fields => Ends.pure (Datum.ofFields fields)) _ hm₁
    refine ⟨r, m₂, hmeasure.bind (htable.bind ?_), hm₂, by rw [hgood, and_true]⟩
    rwa [if_neg (by omega), hentries]

/-- What a value in a table stands for: reading it ends with a result if every list in it ends at its
border. -/
def Rereads (invoke : Invoke H W) (m₀ : Machine H W) (v : Value) (d : Datum) : Prop :=
  ∀ depth, d.depth ≤ depth → Ends m₀ (pullInner invoke depth v) d.Bordered

/-- A value without parts is read. -/
theorem Rereads.of_scalar {v : Value} {d d' : Datum} (hv : ∀ id, v ≠ .table id)
    (hscalar : scalar v = .ok d') (hbordered : d.Bordered) : Rereads invoke m₀ v d := by
  intro depth _
  have hinner : pullInner invoke depth v = Pure.pure d' := by
    cases v with
    | table id => exact absurd rfl (hv id)
    | _ => rw [pullInner, hscalar] <;> first | rfl | simp
  rw [hinner]
  exact (Ends.pure d').of_iff ⟨fun _ => hbordered, fun _ => trivial⟩

/-- What an entry of a list stands for: an item with its index. -/
def RereadsItem (invoke : Invoke H W) (m₀ : Machine H W) (entry : Value × Value)
    (item : Nat × Datum) : Prop :=
  entry.1 = .int (.ofNat item.1) ∧ 1 ≤ item.1 ∧ item.1 < 2 ^ 63 ∧ Rereads invoke m₀ entry.2 item.2

/-- An entry is read as an item if its index is no greater than the length. -/
theorem RereadsItem.ends_item {length depth : Nat} {entry : Value × Value} {item : Nat × Datum}
    (h : RereadsItem invoke m₀ entry item) (hdepth : item.2.depth ≤ depth) :
    Ends m₀ (pullItem invoke depth length entry) (item.1 ≤ length ∧ item.2.Bordered) := by
  obtain ⟨hkey, hpos, hsmall, hrereads⟩ := h
  have hindex : indexOf entry.1 = .ok (item.1 : Int) := by
    rw [hkey, indexOf, Int64.toInt_ofNat_of_lt hsmall]
  have hitem : pullItem invoke depth length entry = do
      if (item.1 : Int) < 1 || (item.1 : Int) > length then
        throw (.indexOutside item.1 length)
      return ((item.1 : Int), ← pullInner invoke depth entry.2) := by
    rw [pullItem, hindex]
    rfl
  rw [hitem]
  by_cases hinside : item.1 ≤ length
  · rw [if_neg (by simp; omega)]
    refine ((hrereads depth hdepth).bind fun d => Ends.pure ((item.1 : Int), d)).of_iff ?_
    simp [hinside]
  · rw [if_pos (by simp; omega)]
    refine ((Ends.throw _).bind fun _ => (hrereads depth hdepth).bind fun d =>
      Ends.pure ((item.1 : Int), d)).of_iff ?_
    simp [hinside]

/-- An entry is read as a field if its key is a text. -/
theorem Rereads.ends_field {depth : Nat} {entry : Value × Value} {d : Datum} {key : String}
    (h : Rereads invoke m₀ entry.2 d) (hkey : keyText entry.1 = .ok key) (hdepth : d.depth ≤ depth) :
    Ends m₀ (pullField invoke depth entry) d.Bordered := by
  have hfield : pullField invoke depth entry = do
      return (key, ← pullInner invoke depth entry.2) := by
    rw [pullField, hkey]
    rfl
  rw [hfield]
  exact ((h depth hdepth).bind fun d => Ends.pure (key, d)).of_iff (by simp)

/-! ## Reading images -/

/-- The image of a list is read, as a list or as a record, if it ends at its borders. -/
theorem Rereads.list {items : List Datum} {values : List Value} {id low : Nat} {t : Table}
    {tables : Array Table} (hget : m₀.tables[id]? = some t) (hholds : t.HoldsItems values)
    (himages : ItemImages tables low items values) (hlength : items.length < 2 ^ 63)
    (hentries : List.Forall₂ (RereadsItem invoke m₀) (Table.slotEntries 0 values)
      (Datum.presentItems 0 items)) : Rereads invoke m₀ (.table id) (.list items) := by
  intro depth hdepth
  rw [Datum.depth] at hdepth
  obtain ⟨depth, rfl⟩ : ∃ below, depth = below + 1 := ⟨depth - 1, by omega⟩
  have hdeep : ∀ e ∈ Datum.presentItems 0 items, e.2.depth ≤ depth :=
    (Datum.forall_presentItems_depth 0).mpr (by omega)
  have hborder : t.length.1 = Datum.border items := himages.length_fst hholds
  have hsteady : t.Steady := hholds.steady (by rwa [himages.length_eq])
  rw [← hholds.entries_eq] at hentries
  refine Ends.pullTable hget hsteady hholds.metatable_eq (fun hpos => ?_) fun hzero => ?_
  · refine (Ends.mapM (fun e => e.1 ≤ t.length.1 ∧ e.2.Bordered) hentries
      fun _ e he h => h.ends_item (hdeep e he)).of_iff ?_
    rw [Datum.bordered_list_iff, hborder, or_iff_right (by omega)]
    exact forall₂_and
  · refine (Ends.mapM (fun e => e.2.Bordered) hentries fun entry e he h => ?_).of_iff ?_
    · obtain ⟨hkey, -, -, hrereads⟩ := h
      have htext : keyText entry.1 = .ok (toString (Int64.ofNat e.1).toInt) := by
        rw [hkey]
        rfl
      exact hrereads.ends_field htext (hdeep e he)
    · rw [Datum.bordered_list_iff, ← hborder]
      simp [hzero]

/-- The image of a record is read if every list in it ends at its border. -/
theorem Rereads.record {fields : List (String × Datum)} {values : List (String × Value)}
    {id capacity : Nat} {t : Table} (hget : m₀.tables[id]? = some t)
    (hholds : t.HoldsFields capacity values)
    (hentries : List.Forall₂ (fun e f => e.1 = .ofString f.1 ∧ Rereads invoke m₀ e.2 f.2)
      (values.map fun e => (Value.ofString e.1, e.2)) (Datum.presentFields fields)) :
    Rereads invoke m₀ (.table id) (.record fields) := by
  intro depth hdepth
  rw [Datum.depth] at hdepth
  obtain ⟨depth, rfl⟩ : ∃ below, depth = below + 1 := ⟨depth - 1, by omega⟩
  obtain ⟨present, hentries, hperm⟩ := List.perm_comp_forall₂ hholds.entries_perm hentries
  have hdeep : ∀ f ∈ present, f.2.depth ≤ depth := by
    intro f hf
    exact Datum.forall_presentFields_depth.mpr (by omega) f (hperm.mem_iff.mp hf)
  refine Ends.pullTable hget hholds.steady hholds.metatable_eq (fun hpos => ?_) fun _ => ?_
  · rw [hholds.length_eq] at hpos
    exact absurd hpos (Nat.lt_irrefl 0)
  · refine (Ends.mapM (fun f => f.2.Bordered) hentries fun entry f hf h => ?_).of_iff ?_
    · have htext : keyText entry.1 = .ok f.1 := by
        rw [h.1, Value.ofString, keyText, pullText_toUTF8]
      exact h.2.ends_field htext (hdeep f hf)
    · simp only [Datum.bordered_record_iff, hperm.mem_iff]

mutual
/-- The image of a value that is not null is read if every list in it ends at its border. -/
theorem Image.rereads {low : Nat} : ∀ {d : Datum} {v : Value}, Image m₀.tables low d v →
    d.Addressable → d.isNull = false → Rereads invoke m₀ v d
  | _, _, .null, _, hnull => absurd hnull (by decide)
  | _, _, .bool _, _, _ => .of_scalar (by simp) rfl (Datum.bordered_of_scalar (by simp) (by simp))
  | _, _, .int _, _, _ => .of_scalar (by simp) rfl (Datum.bordered_of_scalar (by simp) (by simp))
  | _, _, .float _, _, _ => .of_scalar (by simp) rfl (Datum.bordered_of_scalar (by simp) (by simp))
  | _, _, .text s, _, _ =>
    .of_scalar (by simp [Value.ofString]) (scalar_ofString s)
      (Datum.bordered_of_scalar (by simp) (by simp))
  | _, _, .list _ hget hholds himages, haddr, _ => by
    rw [Datum.Addressable] at haddr
    exact .list hget hholds himages haddr.1 (himages.rereads 0 haddr.2 (by omega))
  | _, _, .record _ hget hholds himages, haddr, _ => by
    rw [Datum.Addressable] at haddr
    refine .record hget hholds (himages.rereads fun f hf => ?_)
    obtain ⟨hmem, hnull⟩ := List.mem_filter.mp hf
    exact ⟨Datum.addressableFields_iff.mp haddr f hmem, by simpa using hnull⟩

/-- The images of items are read, each with its index, as those items that are not null. -/
theorem ItemImages.rereads {low : Nat} : ∀ {items : List Datum} {values : List Value} (start : Nat),
    ItemImages m₀.tables low items values → Datum.AddressableItems items →
    start + items.length < 2 ^ 63 →
    List.Forall₂ (RereadsItem invoke m₀) (Table.slotEntries start values)
      (Datum.presentItems start items)
  | _, _, _, .nil, _, _ => .nil
  | _, _, start, .cons himage hrest, haddr, hsmall => by
    rw [List.length_cons] at hsmall
    have htail := hrest.rereads (start + 1) haddr.2 (by omega)
    rw [Table.slotEntries, Datum.presentItems, himage.isNil_eq]
    split
    case isTrue => exact htail
    case isFalse hnull =>
      have hrereads := himage.rereads haddr.1 (Bool.eq_false_iff.mpr hnull)
      exact .cons ⟨rfl, by omega, by omega, hrereads⟩ htail

/-- The images of fields that are not null are read as these fields. -/
theorem FieldImages.rereads {low : Nat} :
    ∀ {fields : List (String × Datum)} {values : List (String × Value)},
    FieldImages m₀.tables low fields values →
    (∀ f ∈ fields, f.2.Addressable ∧ f.2.isNull = false) →
    List.Forall₂ (fun e f => e.1 = .ofString f.1 ∧ Rereads invoke m₀ e.2 f.2)
      (values.map fun e => (Value.ofString e.1, e.2)) fields
  | _, _, .nil, _ => .nil
  | _, _, .cons himage hrest, hfields => by
    obtain ⟨⟨haddr, hnull⟩, hothers⟩ := List.forall_mem_cons.mp hfields
    exact .cons ⟨rfl, himage.rereads haddr hnull⟩ (hrest.rereads hothers)
end

/-- A list or record that has been pushed is read with a result exactly if every list in it ends at its
border. -/
theorem push_pullValue_iff {d : Datum} (hform : d.WellFormed) (hnative : d.Native)
    (haddr : d.Addressable) (hdepth : d.depth ≤ depthLimit)
    (hparts : (∃ items, d = .list items) ∨ ∃ fields, d = .record fields) (m : Machine H W) :
    ∃ id tables, Yields (push d) m (.ok (.table id)) { m with tables } ∧
      ∀ (invoke : Invoke H W) (n : Machine H W), n.tables = tables →
        ∃ r n', Yields (pullValue invoke (.table id)) n r n' ∧ ((∃ a, r = .ok a) ↔ d.Bordered) := by
  obtain ⟨v, tables, hpush, -, -, himage⟩ := push_native d m hform hnative haddr
  obtain ⟨⟨id, rfl⟩, hnull⟩ : (∃ id, v = .table id) ∧ d.isNull = false := by
    rcases hparts with ⟨items, rfl⟩ | ⟨fields, rfl⟩
    · cases himage
      exact ⟨⟨_, rfl⟩, rfl⟩
    · cases himage
      exact ⟨⟨_, rfl⟩, rfl⟩
  refine ⟨id, tables, hpush, fun invoke n htables => ?_⟩
  subst htables
  obtain ⟨r, n', hread, -, hgood⟩ :=
    himage.rereads haddr hnull depthLimit hdepth n (Remains.refl n)
  exact ⟨r, n', hread, hgood⟩

end Exchange
end Sandbox
