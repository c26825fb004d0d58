import Sandbox.Proofs.Exchange.Outcome
import Sandbox.Proofs.Script.Border
import Sandbox.Proofs.Script.Run

/-!
# Measuring tables

Reading a table changes the machine in one way only: tables are measured. A border that is found may be
remembered, and the length function of a metatable is called, which may do anything. As long as such
calls leave what the tables hold, measuring leaves it too.
-/

namespace Sandbox

namespace Script.Machine

variable {H W : Type} {m m' m'' : Machine H W}

/-- Every table that is there keeps what it holds. Its limit may move, and new tables may come. -/
def Keeps (m m' : Machine H W) : Prop :=
  ∀ (id : Nat) (t : Table), m.tables[id]? = some t →
    ∃ t', m'.tables[id]? = some t' ∧ t'.array = t.array ∧ t'.nodes = t.nodes

/-- The indices of all array parts are integers of 64 bits, as in any memory. -/
def Addressable (m : Machine H W) : Prop :=
  ∀ (id : Nat) (t : Table), m.tables[id]? = some t → t.array.size < 2 ^ 63

/-- The array parts of the tables that are there are all that has to be looked at. -/
theorem addressable_of_forall (h : ∀ t ∈ m.tables.toList, t.array.size < 2 ^ 63) :
    m.Addressable :=
  fun _ t hget => h t (Array.mem_toList_iff.mpr (Array.mem_of_getElem? hget))

theorem getElem?_of_lt {id : Nat} (h : id < m.tables.size) : m.tables[id]? = some (m.tableAt id) := by
  rw [tableAt, Array.getD_eq_getD_getElem?, Array.getElem?_eq_getElem h, Option.getD_some]

theorem tableAt_of_getElem? {id : Nat} {t : Table} (h : m.tables[id]? = some t) :
    m.tableAt id = t := by
  rw [tableAt, Array.getD_eq_getD_getElem?, h, Option.getD_some]

theorem Keeps.refl (m : Machine H W) : m.Keeps m := fun _ t h => ⟨t, h, rfl, rfl⟩

theorem Keeps.trans (h : m.Keeps m') (h' : m'.Keeps m'') : m.Keeps m'' := by
  intro id t hget
  obtain ⟨t', hget', harray, hnodes⟩ := h id t hget
  obtain ⟨t'', hget'', harray', hnodes'⟩ := h' id t' hget'
  exact ⟨t'', hget'', harray'.trans harray, hnodes'.trans hnodes⟩

/-- The machine after a border of a table has been looked for. -/
def measure (m : Machine H W) (id : Nat) : Machine H W :=
  { m with tables := m.tables.modify id (·.length.2) }

theorem getElem?_measure {id other : Nat} {t : Table}
    (h : (m.measure id).tables[other]? = some t) :
    ∃ t', m.tables[other]? = some t' ∧ t.array = t'.array ∧ t.nodes = t'.nodes := by
  simp only [measure, Array.getElem?_modify] at h
  split at h
  · obtain ⟨t', hget, rfl⟩ := Option.map_eq_some_iff.mp h
    obtain ⟨limit, hlength⟩ := t'.length_snd
    exact ⟨t', hget, by rw [hlength], by rw [hlength]⟩
  · exact ⟨t, h, rfl, rfl⟩

theorem keeps_measure (m : Machine H W) (id : Nat) : m.Keeps (m.measure id) := by
  intro other t hget
  obtain ⟨hlt, -⟩ := Array.getElem?_eq_some_iff.mp hget
  have hthere : other < (m.measure id).tables.size := by simpa [measure] using hlt
  have hafter := Array.getElem?_eq_getElem hthere
  obtain ⟨t', hget', harray, hnodes⟩ := getElem?_measure hafter
  cases hget.symm.trans hget'
  exact ⟨_, hafter, harray, hnodes⟩

theorem Addressable.measure (h : m.Addressable) (id : Nat) : (m.measure id).Addressable := by
  intro other t hget
  obtain ⟨t', hget', harray, -⟩ := getElem?_measure hget
  rw [harray]
  exact h other t' hget'

/-- The length function of a table, or nil. -/
def lengthEvent (m : Machine H W) (id : Nat) : Value :=
  ((m.tableAt id).metatable.map fun other => (m.tableAt other).getText "__len").getD .nil

/-- What measuring tables makes of a machine. -/
inductive Measured (invoke : Invoke H W) (m : Machine H W) : Machine H W → Prop
  | start : Measured invoke m m
  | border {m' : Machine H W} (id : Nat) (h : Measured invoke m m') :
      Measured invoke m (m'.measure id)
  | call {m' m'' : Machine H W} {id : Nat} {values : List Value} (h : Measured invoke m m')
      (hevent : m'.lengthEvent id ≠ .nil)
      (hcall : invoke (some ⟨"metamethod", "len"⟩) (m'.lengthEvent id) [.table id] m' =
        .ok values m'') : Measured invoke m m''

/-- The length functions of tables that are called while tables are measured change no table when they
return. -/
def LengthsKeep (invoke : Invoke H W) (m : Machine H W) : Prop :=
  ∀ (m' m'' : Machine H W) (id : Nat) (values : List Value), Measured invoke m m' →
    m'.lengthEvent id ≠ .nil →
    invoke (some ⟨"metamethod", "len"⟩) (m'.lengthEvent id) [.table id] m' = .ok values m'' →
    m'.Keeps m'' ∧ (m'.Addressable → m''.Addressable)

/-- Calls that only answer change nothing. -/
theorem lengthsKeep_pure (answers : List Value) (m : Machine H W) :
    m.LengthsKeep fun _ _ _ => pure answers := by
  intro m' m'' id values _ _ hcall
  cases hcall
  exact ⟨.refl m', fun h => h⟩

end Script.Machine

namespace Exchange

open Script Script.Machine

variable {H W : Type} {α : Type} {m m' : Machine H W} {id : Nat}

theorem run_rawLength_measure (m : Machine H W) (id : Nat) :
    (Run.rawLength id : Run H W Nat) m = .ok (m.tableAt id).length.1 (m.measure id) := rfl

/-- How many items a list may have at most: the border, or the number of its indices. -/
def held (m : Machine H W) (id : Nat) (items : List (Int × Datum)) : Nat :=
  max (m.tableAt id).length.1 (items.map (·.1)).eraseDups.length

/-- A list is made, unless it is longer than it may be. -/
theorem yields_makeList (m : Machine H W) (id : Nat) (length : Int) (items : List (Int × Datum)) :
    Yields (makeList id length items) m
      (if length ≤ held m id items then .ok (.list (listItems length.toNat items))
        else .error (.indexOutside length (held m id items))) (m.measure id) := by
  refine (Yields.lift (run_rawLength_measure m id)).bind ?_
  dsimp only
  split
  · split
    · rw [if_neg (by rw [held]; omega)]
      exact .throw _ _
    · rw [if_pos (by rw [held]; omega)]
      exact .pure _ _
  · rw [if_pos (by rw [held]; omega)]
    exact .pure _ _

/-- A list is made of the items exactly if it is not longer than it may be. -/
theorem yields_makeList_iff {length : Int} {items : List (Int × Datum)} {d : Datum} :
    Yields (makeList id length items) m (.ok d) m' ↔
      length ≤ held m id items ∧ d = .list (listItems length.toNat items) ∧ m' = m.measure id := by
  have hmake := yields_makeList m id length items
  constructor
  · intro h
    obtain ⟨hr, rfl⟩ := EStateM.Result.ok.inj (h.symm.trans hmake)
    split at hr
    · rename_i hle
      exact ⟨hle, Except.ok.inj hr, rfl⟩
    · cases hr
  · rintro ⟨hle, rfl, rfl⟩
    rwa [if_pos hle] at hmake

/-- A table that has been read has been measured. What there is in it then has become a list if it has a
length, and otherwise a record. -/
theorem exists_of_pullTable {invoke : Invoke H W} {depth : Nat} {d : Datum}
    (h : Yields (pullTable invoke (depth + 1) id) m (.ok d) m') :
    ∃ length m₁, Yields (lengthOf invoke id) m (.ok length) m₁ ∧
      ((0 < length ∧ ∃ items m₂,
          Yields ((m₁.tableAt id).entries.mapM (pullItem invoke depth length)) m₁ (.ok items) m₂ ∧
          Yields (makeList id length items) m₂ (.ok d) m') ∨
        (length ≤ 0 ∧ ∃ fields,
          Yields ((m₁.tableAt id).entries.mapM (pullField invoke depth)) m₁ (.ok fields) m' ∧
          d = .ofFields fields)) := by
  rw [pullTable_succ] at h
  obtain ⟨length, m₁, hlength, h⟩ := h.exists_of_bind
  obtain ⟨t, m₂, htable, h⟩ := h.exists_of_bind
  cases htable.of_lift
  refine ⟨length, m₁, hlength, ?_⟩
  split at h
  case isTrue hpos =>
    obtain ⟨items, m₂, hread, hmake⟩ := h.exists_of_bind
    exact .inl ⟨hpos, items, m₂, hread, hmake⟩
  case isFalse hpos =>
    obtain ⟨fields, m₂, hread, h⟩ := h.exists_of_bind
    cases h
    exact .inr ⟨by omega, fields, hread, rfl⟩

/-- The border of a table is an integer of 64 bits. -/
theorem length_lt (h : m.Addressable) (id : Nat) : (m.tableAt id).length.1 < 2 ^ 63 := by
  have hsize : (m.tableAt id).array.size < 2 ^ 63 := by
    cases hget : m.tables[id]? with
    | none =>
      have hempty : m.tableAt id = {} := by simp [tableAt, Array.getD_eq_getD_getElem?, hget]
      rw [hempty]
      decide
    | some t =>
      rw [tableAt_of_getElem? hget]
      exact h id t hget
  rcases Table.reaches_length hsize with hzero | ⟨-, hlt, -⟩
  · omega
  · exact hlt

theorem metafield_len (m : Machine H W) (id : Nat) :
    (Run.metafield (.table id) "__len" : Run H W Value).run m = .ok (m.lengthEvent id) m := by
  have hmetatable : (Run.metatable? (.table id) : Run H W (Option Nat)).run m =
      .ok (m.tableAt id).metatable m := rfl
  rw [Run.metafield, Run.bind_ok hmetatable, lengthEvent]
  cases (m.tableAt id).metatable <;> rfl

/-- The length of a table is its border, or what its length function answers. -/
theorem run_length {invoke : Invoke H W} {v : Value}
    (h : (Run.length invoke (.table id)).run m = .ok v m') :
    (v = .int (.ofNat (m.tableAt id).length.1) ∧ m' = m.measure id) ∨
      (m.lengthEvent id ≠ .nil ∧ ∃ values,
        invoke (some ⟨"metamethod", "len"⟩) (m.lengthEvent id) [.table id] m = .ok values m') := by
  unfold Run.length at h
  rw [Run.bind_ok (metafield_len m id)] at h
  by_cases hevent : m.lengthEvent id = .nil
  · rw [hevent] at h
    cases h
    exact .inl ⟨rfl, rfl⟩
  · have hname : ("__len".drop 2).toString = "len" := by decide +kernel
    have hcall : (Run.callEvent invoke "__len" (m.lengthEvent id) [.table id]).run m = .ok v m' := by
      generalize m.lengthEvent id = event at h hevent
      cases event with
      | nil => exact absurd rfl hevent
      | _ => exact h
    rw [Run.callEvent, hname] at hcall
    obtain ⟨values, m₁, hinvoke, h⟩ := Run.exists_of_bind hcall
    cases h
    exact .inr ⟨hevent, values, hinvoke⟩

/-- A table that is not there is empty and has no metatable. -/
theorem tableAt_of_not_lt (h : ¬id < m.tables.size) : m.tableAt id = {} := by
  simp [tableAt, Array.getD_eq_getD_getElem?, h]

/-- A measured length is an integer of 64 bits, and zero if there is no table. Measuring goes on. -/
theorem lengthOf_spec {m₀ : Machine H W} {invoke : Invoke H W} {n : Int}
    (hkeep : m₀.LengthsKeep invoke) (hm : Measured invoke m₀ m) (haddr : m.Addressable)
    (h : Yields (lengthOf invoke id) m (.ok n) m') :
    (n < 2 ^ 63 ∧ (0 < n → id < m.tables.size)) ∧ Measured invoke m₀ m' ∧ m.Keeps m' ∧
      m'.Addressable := by
  rw [lengthOf] at h
  obtain ⟨t, m₁, htable, h⟩ := h.exists_of_bind
  have ht : t = m.tableAt id ∧ m₁ = m := by
    cases htable.of_lift
    exact ⟨rfl, rfl⟩
  obtain ⟨rfl, rfl⟩ := ht
  obtain ⟨measured, m₂, hguarded, h⟩ := h.exists_of_bind
  have hrun := hguarded.of_lift
  cases measured with
  | error fault => cases h
  | ok k =>
    cases h
    have hact := Run.run_of_guarded hrun
    split at hact
    · have hn : n = (m₁.tableAt id).length.1 ∧ m' = m₁.measure id := by
        cases hact
        exact ⟨rfl, rfl⟩
      obtain ⟨rfl, rfl⟩ := hn
      have hlt := length_lt haddr id
      refine ⟨⟨by omega, fun hpos => ?_⟩, hm.border id, keeps_measure m₁ id, haddr.measure id⟩
      by_contra hout
      rw [tableAt_of_not_lt hout] at hpos
      exact absurd hpos (by decide)
    · rename_i hmeta
      have hthere : id < m₁.tables.size := by
        by_contra hout
        exact hmeta (by rw [tableAt_of_not_lt hout]; rfl)
      obtain ⟨v, m₃, hlength, hact⟩ := Run.exists_of_bind hact
      split at hact
      · rename_i k _
        cases hact
        have hlt := k.toInt_lt
        rcases run_length hlength with ⟨-, rfl⟩ | ⟨hevent, values, hcall⟩
        · exact ⟨⟨hlt, fun _ => hthere⟩, hm.border id, keeps_measure m₁ id, haddr.measure id⟩
        · obtain ⟨hkeeps, haddr'⟩ := hkeep m₁ _ id values hm hevent hcall
          exact ⟨⟨hlt, fun _ => hthere⟩, hm.call hevent hcall, hkeeps, haddr' haddr⟩
      · cases hact

end Exchange
end Sandbox
