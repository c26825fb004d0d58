import Sandbox.Proofs.Datum.Settled
import Sandbox.Proofs.Exchange.Measure
import Sandbox.Proofs.Exchange.RoundTrip
import Mathlib.Data.Int.Interval

/-!
# What is pulled is stable

A table may say any length of itself, but what is read from it has an item at the end: a list is as
long as the border of the table, where the table holds a value, or it has as many items as its length.
So a value that has been read goes to a script and comes back as it is.
-/

namespace Sandbox

/-! ## The items of a list -/

theorem exists_of_mem_left {α β : Type} {R : α → β → Prop} {as : List α} {bs : List β}
    (h : List.Forall₂ R as bs) {a : α} (ha : a ∈ as) : ∃ b ∈ bs, R a b := by
  induction h with
  | nil => cases ha
  | cons hfirst _ ih =>
    rcases List.mem_cons.mp ha with rfl | ha
    · exact ⟨_, List.mem_cons_self, hfirst⟩
    · obtain ⟨b, hb, hab⟩ := ih ha
      exact ⟨b, List.mem_cons_of_mem _ hb, hab⟩

theorem exists_of_mem_right {α β : Type} {R : α → β → Prop} {as : List α} {bs : List β}
    (h : List.Forall₂ R as bs) {b : β} (hb : b ∈ bs) : ∃ a ∈ as, R a b :=
  exists_of_mem_left h.flip hb

/-- As many indices as there are places fill all places. -/
theorem mem_of_le_length_eraseDups {indices : List Int} {n : Int}
    (hin : ∀ i ∈ indices, 1 ≤ i ∧ i ≤ n) (hn : 0 < n) (hmany : n ≤ indices.eraseDups.length) :
    n ∈ indices := by
  by_contra hout
  have hsub : indices.eraseDups.toFinset ⊆ Finset.Icc 1 (n - 1) := by
    intro i hi
    have hi := List.mem_eraseDups.mp (List.mem_toFinset.mp hi)
    obtain ⟨hlow, hhigh⟩ := hin i hi
    have hne : i ≠ n := fun heq => hout (heq ▸ hi)
    exact Finset.mem_Icc.mpr ⟨hlow, by omega⟩
  have hcard := Finset.card_le_card hsub
  rw [List.toFinset_card_of_nodup (nodup_eraseDups indices), Int.card_Icc] at hcard
  omega

namespace Exchange

open Script Script.Machine

/-- Putting items into slots keeps the number of the slots. -/
theorem length_listItems (count : Nat) (items : List (Int × Datum)) :
    (listItems count items).length = count := by
  have hfold (slots : Array Datum) : (items.foldl
      (fun (acc : Array Datum) e => acc.setIfInBounds (e.1.toNat - 1) e.2) slots).size =
        slots.size := by
    induction items generalizing slots with
    | nil => rfl
    | cons e rest ih => rw [List.foldl_cons, ih, Array.size_setIfInBounds]
  rw [listItems, Array.length_toList]
  exact (hfold _).trans (by simp)

/-- In the slots there is null and what has been put there. -/
theorem mem_listItems {count : Nat} {items : List (Int × Datum)} {d : Datum} :
    d ∈ listItems count items → d = .null ∨ ∃ e ∈ items, d = e.2 := by
  have hfold (slots : Array Datum) (h : d ∈ items.foldl
      (fun (acc : Array Datum) e => acc.setIfInBounds (e.1.toNat - 1) e.2) slots) :
      d ∈ slots ∨ ∃ e ∈ items, d = e.2 := by
    induction items generalizing slots with
    | nil => exact .inl h
    | cons e rest ih =>
      rcases ih _ h with hslot | ⟨e', he', heq⟩
      · rcases Array.mem_or_eq_of_mem_setIfInBounds hslot with hslot | heq
        · exact .inl hslot
        · exact .inr ⟨e, List.mem_cons_self, heq⟩
      · exact .inr ⟨e', List.mem_cons_of_mem _ he', heq⟩
  intro h
  rw [listItems, Array.mem_toList_iff] at h
  exact (hfold _ h).imp_left fun hslot => (Array.mem_replicate.mp hslot).2

/-- The last slot is not null if something is put there and nothing that is put anywhere is null. -/
theorem getLast?_listItems {count : Nat} {items : List (Int × Datum)} (hcount : 0 < count)
    (hlast : (count : Int) ∈ items.map (·.1)) (hnull : ∀ e ∈ items, e.2 ≠ .null) :
    (listItems count items).getLast? ≠ some .null := by
  have hfold (slots : Array Datum) (hsize : slots.size = count)
      (h : slots[count - 1]? ≠ some .null ∨ (count : Int) ∈ items.map (·.1)) :
      (items.foldl (fun (acc : Array Datum) e => acc.setIfInBounds (e.1.toNat - 1) e.2)
        slots)[count - 1]? ≠ some .null := by
    clear hlast
    induction items generalizing slots with
    | nil => simpa using h
    | cons e rest ih =>
      obtain ⟨he, hrest⟩ := List.forall_mem_cons.mp hnull
      refine ih hrest _ (by simpa using hsize) ?_
      rw [Array.getElem?_setIfInBounds]
      by_cases hslot : e.1.toNat - 1 = count - 1
      · rw [if_pos hslot, if_pos (by omega)]
        exact .inl (by simpa using he)
      · rw [if_neg hslot]
        refine h.imp_right fun hmem => ?_
        rcases List.mem_cons.mp hmem with heq | hmem
        · have hindex : (count : Int) = e.1 := heq
          omega
        · exact hmem
  rw [List.getLast?_eq_getElem?, length_listItems, listItems, Array.getElem?_toList]
  exact hfold _ (by simp) (.inr hlast)

/-! ## Reading one table -/

variable {H W : Type} {invoke : Invoke H W} {m₀ m m' : Machine H W} {depth id : Nat}

/-- Measuring has led to this machine, and the indices of its array parts are integers. -/
def IsMeasured (invoke : Invoke H W) (m₀ m : Machine H W) : Prop :=
  Measured invoke m₀ m ∧ m.Addressable

/-- A value in which at most this many tables are inside one another is settled and not null. -/
structure Comes (depth : Nat) (d : Datum) : Prop where
  settled : d.Settled
  ne_null : d ≠ .null
  depth_le : d.depth ≤ depth

/-- Whatever the exchange is done with, it only measures tables, and its result has a property. -/
def Gives {α : Type} (invoke : Invoke H W) (m₀ : Machine H W) (act : Exchanging H W α)
    (P : α → Prop) : Prop :=
  ∀ m a m', IsMeasured invoke m₀ m → Yields act m (.ok a) m' →
    IsMeasured invoke m₀ m' ∧ m.Keeps m' ∧ P a

/-- A value that is no table is read as a settled one. -/
theorem comes_of_scalar {v : Value} {d : Datum} (h : scalar v = .ok d) : Comes depth d := by
  cases v with
  | bool | int | float =>
    cases h
    exact ⟨trivial, by simp, Nat.zero_le _⟩
  | text s =>
    rw [scalar] at h
    cases htext : pullText s with
    | error e =>
      rw [htext] at h
      cases h
    | ok text =>
      rw [htext] at h
      cases h
      exact ⟨trivial, by simp, Nat.zero_le _⟩
  | _ => cases h

theorem Yields.of_liftExcept {α : Type} {r : Except Error α} {a : α}
    (h : Yields (pullTable.liftExcept r) m (.ok a) m') : r = .ok a ∧ m = m' := by
  cases r with
  | error e => cases h
  | ok b =>
    cases h
    exact ⟨rfl, rfl⟩

/-- What a table holds is settled if its tables are. -/
theorem gives_pullInner (hdeep : ∀ id, Gives invoke m₀ (pullTable invoke depth id) (Comes depth))
    (v : Value) : Gives invoke m₀ (pullInner invoke depth v) (Comes depth) := by
  intro m d m' hm h
  by_cases htable : ∃ id, v = .table id
  · obtain ⟨id, rfl⟩ := htable
    exact hdeep id m d m' hm h
  · have hinner : pullInner invoke depth v = pullTable.liftExcept (scalar v) := by
      cases v with
      | table id => exact absurd ⟨id, rfl⟩ htable
      | _ => rfl
    rw [hinner] at h
    obtain ⟨hscalar, rfl⟩ := h.of_liftExcept
    exact ⟨hm, .refl m, comes_of_scalar hscalar⟩

/-- What an entry of a list becomes: an item at its index, which is inside the list. -/
structure BecomesItem (depth : Nat) (length : Int) (entry : Value × Value) (item : Int × Datum) :
    Prop where
  index : indexOf entry.1 = .ok item.1
  inside : 1 ≤ item.1 ∧ item.1 ≤ length
  comes : Comes depth item.2

theorem gives_pullItem (hdeep : ∀ id, Gives invoke m₀ (pullTable invoke depth id) (Comes depth))
    (length : Int) (entry : Value × Value) :
    Gives invoke m₀ (pullItem invoke depth length entry) (BecomesItem depth length entry) := by
  intro m item m' hm h
  rw [pullItem] at h
  obtain ⟨i, m₁, hfirst, h⟩ := h.exists_of_bind
  obtain ⟨hindex, rfl⟩ := hfirst.of_liftExcept
  split at h
  · cases h
  · rename_i hinside
    simp only [Bool.or_eq_true, decide_eq_true_eq, not_or, not_lt] at hinside
    obtain ⟨d, m₂, hinner, h⟩ := h.exists_of_bind
    obtain ⟨hm₂, hkeeps, hcomes⟩ := gives_pullInner hdeep entry.2 _ d m₂ hm hinner
    cases h
    exact ⟨hm₂, hkeeps, hindex, hinside, hcomes⟩

theorem gives_pullField (hdeep : ∀ id, Gives invoke m₀ (pullTable invoke depth id) (Comes depth))
    (entry : Value × Value) :
    Gives invoke m₀ (pullField invoke depth entry) fun field => Comes depth field.2 := by
  intro m field m' hm h
  rw [pullField] at h
  obtain ⟨key, m₁, hfirst, h⟩ := h.exists_of_bind
  obtain ⟨-, rfl⟩ := hfirst.of_liftExcept
  obtain ⟨d, m₂, hinner, h⟩ := h.exists_of_bind
  obtain ⟨hm₂, hkeeps, hcomes⟩ := gives_pullInner hdeep entry.2 _ d m₂ hm hinner
  cases h
  exact ⟨hm₂, hkeeps, hcomes⟩

/-- A border at which there is an item is no longer than the list, and is an index in it. -/
theorem border_mem {t : Table} {length : Int} {items : List (Int × Datum)} (hsize : t.array.size < 2 ^ 63)
    (hitems : List.Forall₂ (BecomesItem depth length) t.entries items) (hpos : 0 < t.length.1) :
    (t.length.1 : Int) ≤ length ∧ (t.length.1 : Int) ∈ items.map (·.1) := by
  have hreaches := t.reaches_length hsize
  obtain ⟨v, hentry⟩ := Table.exists_entry_of_reaches hreaches hpos
  obtain ⟨item, hitem, hbecomes⟩ := exists_of_mem_left hitems hentry
  obtain ⟨-, hlt, -⟩ := hreaches.resolve_left (Nat.ne_of_gt hpos)
  have hindex := hbecomes.index
  rw [indexOf, Int64.toInt_ofNat_of_lt hlt] at hindex
  have hsame : (t.length.1 : Int) = item.1 := Except.ok.inj hindex
  rw [hsame]
  exact ⟨hbecomes.inside.2, List.mem_map_of_mem hitem⟩

/-- A list has an item at its end. -/
theorem makeList_spec {t : Table} {length : Int} {items : List (Int × Datum)} {d : Datum}
    (haddr : m.Addressable) (hget : m.tables[id]? = some t) (hlength : 0 < length)
    (hitems : List.Forall₂ (BecomesItem depth length) t.entries items)
    (h : Yields (makeList id length items) m (.ok d) m') :
    m' = m.measure id ∧ d = .list (listItems length.toNat items) ∧ length ∈ items.map (·.1) := by
  have hinside : ∀ i ∈ items.map (·.1), 1 ≤ i ∧ i ≤ length := by
    intro i hi
    obtain ⟨item, hitem, rfl⟩ := List.mem_map.mp hi
    obtain ⟨entry, -, hentry⟩ := exists_of_mem_right hitems hitem
    exact hentry.inside
  obtain ⟨hheld, hd, hm'⟩ := yields_makeList_iff.mp h
  refine ⟨hm', hd, ?_⟩
  rw [held, tableAt_of_getElem? hget] at hheld
  by_cases hborder : length ≤ t.length.1
  · obtain ⟨hle, hmem⟩ := border_mem (haddr id t hget) hitems (by omega)
    rwa [Int.le_antisymm hborder hle]
  · -- the border is in front of the end of the list, so all places of the list are filled
    exact mem_of_le_length_eraseDups hinside hlength (by omega)

/-- What a list of settled items comes from makes it settled. -/
theorem comes_listItems {t : Table} {length : Int} {items : List (Int × Datum)}
    (hitems : List.Forall₂ (BecomesItem depth length) t.entries items) (hlength : 0 < length)
    (hlt : length < 2 ^ 63) (hlast : length ∈ items.map (·.1)) :
    Comes (depth + 1) (.list (listItems length.toNat items)) := by
  have hcomes : ∀ e ∈ items, Comes depth e.2 := by
    intro item hitem
    obtain ⟨entry, -, hentry⟩ := exists_of_mem_right hitems hitem
    exact hentry.comes
  have hsize : (listItems length.toNat items).length = length.toNat := length_listItems _ _
  have hslots : ∀ d ∈ listItems length.toNat items, d.Settled ∧ d.depth ≤ depth := by
    intro d hd
    rcases mem_listItems hd with rfl | ⟨e, he, rfl⟩
    · exact ⟨trivial, Nat.zero_le _⟩
    · exact ⟨(hcomes e he).settled, (hcomes e he).depth_le⟩
  refine ⟨⟨?_, ?_, ?_, ?_⟩, by simp, ?_⟩
  · refine List.ne_nil_of_length_pos ?_
    omega
  · refine getLast?_listItems (by omega) ?_ fun e he => (hcomes e he).ne_null
    rwa [Int.toNat_of_nonneg (by omega)]
  · omega
  · exact Datum.settledItems_iff.mpr fun d hd => (hslots d hd).1
  · rw [Datum.depth]
    have hdepth := Datum.depthItems_le fun d hd => (hslots d hd).2
    omega

/-- A record of settled fields is settled. -/
theorem comes_ofFields {fields : List (String × Datum)} (hfields : ∀ f ∈ fields, Comes depth f.2) :
    Comes (depth + 1) (.ofFields fields) := by
  have hcomes : ∀ f ∈ Named.ofList fields, Comes depth f.2 := by
    intro f hf
    exact hfields f ((Named.mem_insertAll hf).resolve_left List.not_mem_nil)
  refine ⟨⟨?_, ?_⟩, by simp [Datum.ofFields], ?_⟩
  · exact List.pairwise_map.mpr (Named.Ascending.insertAll List.Pairwise.nil fields)
  · exact Datum.settledFields_iff.mpr fun f hf => ⟨(hcomes f hf).ne_null, (hcomes f hf).settled⟩
  · rw [Datum.ofFields, Datum.depth]
    have hdepth := Datum.depthFields_le_iff.mpr fun f hf => (hcomes f hf).depth_le
    omega

/-- Where a table keeps what it holds, it keeps its entries. -/
theorem entries_of_keeps {t : Table} (h : m.Keeps m') (hget : m.tables[id]? = some t) :
    ∃ t', m'.tables[id]? = some t' ∧ t'.entries = t.entries := by
  obtain ⟨t', hget', harray, hnodes⟩ := h id t hget
  refine ⟨t', hget', ?_⟩
  rw [Table.entries_eq, Table.entries_eq, Table.nodeEntries, Table.nodeEntries, harray, hnodes]

/-! ## Reading tables in tables -/

/-- Reading a table only measures tables and gives a settled value, which is no deeper than reading
allows. -/
theorem gives_pullTable (hkeep : m₀.LengthsKeep invoke) (depth : Nat) :
    ∀ id, Gives invoke m₀ (pullTable invoke depth id) (Comes depth) := by
  induction depth with
  | zero =>
    intro id m d m' _ h
    cases h
  | succ depth ih =>
    intro id m d m' hm h
    obtain ⟨length, m₁, hlength, hparts⟩ := exists_of_pullTable h
    obtain ⟨⟨hlt, hthere⟩, hm₁, hkeeps₁, haddr₁⟩ := lengthOf_spec hkeep hm.1 hm.2 hlength
    rcases hparts with ⟨hpos, items, m₂, hread, hmake⟩ | ⟨-, fields, hread, rfl⟩
    · obtain ⟨hm₂, hkeeps₂, hitems⟩ := Yields.of_mapM Keeps.refl (fun _ _ _ => Keeps.trans)
        (fun entry _ => gives_pullItem ih length entry) ⟨hm₁, haddr₁⟩ hread
      -- the table is there, and it holds after its entries have been read what it held before
      have hget₁ : m₁.tables[id]? = some (m₁.tableAt id) := by
        obtain ⟨t, hget, -⟩ := hkeeps₁ id _ (Array.getElem?_eq_getElem (hthere hpos))
        rw [hget, tableAt, Array.getD_eq_getD_getElem?, hget, Option.getD_some]
      obtain ⟨t, hget₂, hentries⟩ := entries_of_keeps hkeeps₂ hget₁
      rw [← hentries] at hitems
      obtain ⟨rfl, rfl, hlast⟩ := makeList_spec hm₂.2 hget₂ hpos hitems hmake
      exact ⟨⟨hm₂.1.border id, hm₂.2.measure id⟩,
        (hkeeps₁.trans hkeeps₂).trans (keeps_measure m₂ id), comes_listItems hitems hpos hlt hlast⟩
    · obtain ⟨hm₂, hkeeps₂, hfields⟩ := Yields.of_mapM Keeps.refl (fun _ _ _ => Keeps.trans)
        (fun entry _ => gives_pullField ih entry) ⟨hm₁, haddr₁⟩ hread
      refine ⟨hm₂, hkeeps₁.trans hkeeps₂, comes_ofFields fun f hf => ?_⟩
      obtain ⟨entry, -, hentry⟩ := exists_of_mem_right hfields hf
      exact hentry

/-- What is read from a table is a list or a record. -/
theorem cases_of_pullTable {d : Datum} (h : Yields (pullTable invoke depth id) m (.ok d) m') :
    (∃ items, d = .list items) ∨ ∃ fields, d = .record fields := by
  cases depth with
  | zero => cases h
  | succ depth =>
    obtain ⟨length, m₁, -, ⟨-, items, m₂, -, hmake⟩ | ⟨-, fields, -, rfl⟩⟩ := exists_of_pullTable h
    · exact .inl ⟨_, (yields_makeList_iff.mp hmake).2.1⟩
    · exact .inr ⟨_, rfl⟩

/-- A list or record that has come from a table can be pushed to any machine, and there it is read as
it is. -/
theorem push_pullValue {d : Datum} (hcomes : Comes depthLimit d)
    (hparts : (∃ items, d = .list items) ∨ ∃ fields, d = .record fields) (invoke : Invoke H W)
    (n : Machine H W) : ∃ v tables, Yields (push d) n (.ok v) { n with tables } ∧
      Yields (pullValue invoke v) { n with tables } (.ok d) { n with tables } := by
  obtain ⟨hform, hsolid, haddr, hnormal⟩ := hcomes.settled.fit
  obtain ⟨v, tables, hpush, -, -, himage⟩ := push_image d n hform hsolid haddr
  refine ⟨v, tables, hpush, ?_⟩
  have hnull : d.isNull = false := Bool.eq_false_iff.mpr (mt Datum.isNull_iff.mp hcomes.ne_null)
  have hreads : Reads invoke { n with tables } v d := himage.reads hform hsolid haddr hnull
  have hread := hreads depthLimit
  rw [if_pos hcomes.depth_le, hnormal] at hread
  have htable : ∃ other, v = .table other := by
    rcases hparts with ⟨items, rfl⟩ | ⟨fields, rfl⟩
    · cases himage
      exact ⟨_, rfl⟩
    · cases himage
      exact ⟨_, rfl⟩
  obtain ⟨other, rfl⟩ := htable
  exact hread

/-- What is read from a table, of any shape and with any length functions that change no table, can be
pushed to any machine, and there it is read as it is. -/
theorem pull_push_pull (invoke : Invoke H W) (m m' : Machine H W) (id : Nat) (d : Datum)
    (haddr : m.Addressable) (hkeep : m.LengthsKeep invoke)
    (hpull : Yields (pull invoke id) m (.ok d) m') (invoke' : Invoke H W) (n : Machine H W) :
    (d.Settled ∧ d.depth ≤ 200) ∧
      ∃ v tables, Yields (push d) n (.ok v) { n with tables } ∧
        Yields (pullValue invoke' v) { n with tables } (.ok d) { n with tables } := by
  obtain ⟨-, -, hcomes⟩ := gives_pullTable hkeep depthLimit id m d m' ⟨.start, haddr⟩ hpull
  exact ⟨⟨hcomes.settled, hcomes.depth_le⟩,
    push_pullValue hcomes (cases_of_pullTable hpull) invoke' n⟩

/-- A table with a hole, whose length function tells its length, is a list with null in it, and so is
what is pushed for this list. -/
theorem pull_push_pull_of_hole :
    let t : Table := { array := #[.int 1, .nil, .int 3], limit := 3, metatable := some 1 }
    let m : Machine Empty Unit :=
      { tables := #[t, Table.setText {} "__len" (.function 0)], world := () }
    let invoke : Invoke Empty Unit := fun _ _ _ => pure [.int 3]
    let d : Datum := .list [.int 1, .null, .int 3]
    (m.Addressable ∧ m.LengthsKeep invoke ∧ Yields (pull invoke 0) m (.ok d) (m.measure 0)) ∧
      ∃ v tables, Yields (push d) m (.ok v) { m with tables } ∧
        Yields (pullValue invoke v) { m with tables } (.ok d) { m with tables } := by
  intro t m invoke d
  have haddr : m.Addressable := by
    have hall : ∀ t ∈ m.tables.toList, t.array.size < 2 ^ 63 := by
      simp only [m, t]
      decide +kernel
    intro id t hget
    exact hall t (Array.mem_toList_iff.mpr (Array.mem_of_getElem? hget))
  have hkeep : m.LengthsKeep invoke := by
    intro m' m'' id values _ _ hcall
    cases hcall
    exact ⟨.refl m', fun h => h⟩
  have hpull : Yields (pull invoke 0) m (.ok d) (m.measure 0) := by
    simp only [t, m, invoke, d]
    rw [pull, depthLimit, pullTable_succ, Yields]
    rfl
  exact ⟨⟨haddr, hkeep, hpull⟩, (pull_push_pull invoke m _ 0 d haddr hkeep hpull invoke m).2⟩

end Exchange
end Sandbox
