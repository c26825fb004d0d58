import Sandbox.Proofs.Script.Entries
import Mathlib.Algebra.Group.Nat.Defs

/-!
# Borders

The length that a table finds for itself is zero or an index that holds a value, whatever the table
looks like: where the search stands it stands on such an index, and it only ever moves up to another
one.
-/

namespace Sandbox.Script.Table

variable {t : Table}

/-- The number is zero, or an index of 64 bits at which the table holds a value. -/
def Reaches (t : Table) (n : Nat) : Prop := n = 0 ∨ (1 ≤ n ∧ n < 2 ^ 63 ∧ t.getIndex n ≠ .nil)

/-- A bisection ends where it began or at an index that is present. -/
theorem bisect_spec {P : Nat → Prop} {absent : Nat → Bool} {fuel low high : Nat} (hlow : P low)
    (hpresent : ∀ n, n ≤ high → absent n = false → P n) : P (bisect absent fuel low high) := by
  induction fuel generalizing low high with
  | zero => exact hlow
  | succ fuel ih =>
    rw [bisect]
    split
    · exact hlow
    · have hmiddle : (low + high) / 2 ≤ high := by omega
      simp only
      split
      · exact ih hlow fun n hn => hpresent n (by omega)
      · rename_i habsent
        exact ih (hpresent _ hmiddle (Bool.eq_false_iff.mpr habsent)) hpresent

/-- A bisection stays below its upper end. -/
theorem bisect_lt {absent : Nat → Bool} {fuel low high : Nat} (h : low < high) :
    bisect absent fuel low high < high := by
  induction fuel generalizing low high with
  | zero => exact h
  | succ fuel ih =>
    rw [bisect]
    split
    · exact h
    · simp only
      split
      · exact Nat.lt_trans (ih (by omega)) (by omega)
      · exact ih (by omega)

/-- A slot that holds a value is an index that does. -/
theorem reaches_of_slot (hsize : t.array.size < 2 ^ 63) {n : Nat} (h : t.slotIsEmpty n = false) :
    t.Reaches n := by
  by_cases hn : n = 0
  · exact .inl hn
  · have hvalue : t.array.getD (n - 1) .nil ≠ .nil := fun hnil => by
      rw [slotIsEmpty, hnil] at h
      cases h
    have hlt : n - 1 < t.array.size := by
      by_contra hout
      exact hvalue (by simp [Array.getD_eq_getD_getElem?, hout])
    refine .inr ⟨by omega, by omega, ?_⟩
    rw [getIndex, if_pos (by simp; omega)]
    exact hvalue

/-- An index that is present holds a value. -/
theorem reaches_of_present {n : Nat} (hn : n ≤ maxIndex) (h : t.isAbsent n = false) :
    t.Reaches n := by
  by_cases hzero : n = 0
  · exact .inl hzero
  · have hmax : maxIndex < 2 ^ 63 := by decide
    refine .inr ⟨by omega, by omega, fun hnil => ?_⟩
    rw [isAbsent, hnil] at h
    cases h

/-- Doubling an index that is present ends at one that is. -/
theorem reaches_unboundBorder {fuel index : Nat} (hindex : index ≤ maxIndex)
    (h : t.Reaches index) : t.Reaches (t.unboundBorder fuel index) := by
  induction fuel generalizing index with
  | zero => exact h
  | succ fuel ih =>
    rw [unboundBorder]
    split
    · split
      · exact bisect_spec h fun n hn => reaches_of_present hn
      · rename_i habsent
        exact reaches_of_present (Nat.le_refl _) (Bool.eq_false_iff.mpr habsent)
    · have hdouble : index * 2 ≤ maxIndex := by omega
      split
      · exact bisect_spec h fun n hn => reaches_of_present (by omega)
      · rename_i habsent
        exact ih hdouble (reaches_of_present hdouble (Bool.eq_false_iff.mpr habsent))

/-- Behind an array part that is empty or full a border is found in the nodes. -/
theorem reaches_borderInNodes (hsize : t.array.size < 2 ^ 63) (h : t.Reaches t.array.size) :
    t.Reaches t.borderInNodes := by
  have hmax : t.array.size ≤ maxIndex := by
    unfold maxIndex
    omega
  rw [borderInNodes]
  split
  · exact h
  · rename_i hnext
    simp only [Bool.or_eq_true, not_or, Bool.not_eq_true] at hnext
    refine reaches_unboundBorder ?_ ?_
    · split
      · decide
      · exact hmax
    · split
      · rename_i hzero
        have hfirst := hnext.2
        rw [hzero] at hfirst
        exact reaches_of_present (by decide) hfirst
      · exact h

/-- The length of a table is zero or an index that holds a value. -/
theorem reaches_length (hsize : t.array.size < 2 ^ 63) : t.Reaches t.length.1 := by
  have hzero : t.Reaches 0 := .inl rfl
  have hslot {n : Nat} (h : ¬t.slotIsEmpty n = true) : t.Reaches n :=
    reaches_of_slot hsize (Bool.eq_false_iff.mpr h)
  rw [length]
  split
  · -- the limit is on an empty slot, and the border is in front of it
    simp only
    split
    · rename_i hbefore
      simp only [Bool.and_eq_true, Bool.not_eq_true'] at hbefore
      exact reaches_of_slot hsize hbefore.2
    · exact bisect_spec hzero fun n _ => reaches_of_slot hsize
  · rename_i hlimit
    have hfrom : t.Reaches t.limit := by
      by_cases hpos : t.limit = 0
      · exact .inl hpos
      · refine hslot fun hempty => hlimit ?_
        simp only [Bool.and_eq_true, decide_eq_true_eq]
        exact ⟨by omega, hempty⟩
    split
    · split
      · exact hfrom
      · split
        · exact bisect_spec hfrom fun n _ => reaches_of_slot hsize
        · rename_i hlast
          exact reaches_borderInNodes hsize (hslot hlast)
    · rename_i hsame
      simp only [ne_eq, not_not] at hsame
      exact reaches_borderInNodes hsize (hsame ▸ hfrom)

theorem remember_eq (t : Table) (border : Nat) : ∃ limit, t.remember border = { t with limit } := by
  rw [remember]
  split
  · exact ⟨border, rfl⟩
  · exact ⟨t.limit, rfl⟩

/-- Looking for a border changes nothing but the limit. -/
theorem length_snd (t : Table) : ∃ limit, t.length.2 = { t with limit } := by
  rw [length]
  split
  · exact t.remember_eq _
  · split
    · split
      · exact ⟨t.limit, rfl⟩
      · split
        · exact ⟨_, rfl⟩
        · exact ⟨t.limit, rfl⟩
    · exact ⟨t.limit, rfl⟩

/-! ## Entries at indices -/

/-- A slot that holds a value is met in a traversal under its index. -/
theorem mem_slotEntries (start : Nat) {values : List Value} {i : Nat} {v : Value}
    (hget : values[i]? = some v) (hv : v ≠ .nil) : (Value.int (.ofNat (start + i + 1)), v) ∈ slotEntries start values := by
  induction values generalizing i start with
  | nil => cases hget
  | cons first rest ih =>
    rw [slotEntries]
    cases i with
    | zero =>
      obtain rfl : first = v := by simpa using hget
      rw [if_neg (mt Value.isNil_iff.mp hv)]
      exact List.mem_cons_self
    | succ i =>
      have hrest := ih (start + 1) (by simpa using hget)
      rw [show start + 1 + i + 1 = start + (i + 1) + 1 by omega] at hrest
      split
      · exact hrest
      · exact List.mem_cons_of_mem _ hrest

/-- What the nodes hold for a key that is no float is met in a traversal. -/
theorem mem_nodeEntries {key : Value} {i : Nat} (hfind : t.findNode key = some i)
    (hkey : ∀ x, key ≠ .float x) (hvalue : (t.nodes.getD i {}).value ≠ .nil) :
    (key, (t.nodes.getD i {}).value) ∈ t.nodeEntries := by
  rw [findNode] at hfind
  split at hfind
  · cases hfind
  · obtain ⟨hlt, hsame⟩ := sameKey_of_findInChain hfind
    have heq := Value.eq_of_sameKey hkey hsame
    rw [← heq]
    refine List.mem_filterMap.mpr ⟨t.nodes.getD i {}, ?_, Node.pair?_of_ne hvalue⟩
    simp [hlt]

/-- An index that holds a value is met in a traversal. -/
theorem exists_entry_of_reaches {n : Nat} (h : t.Reaches n) (hn : 0 < n) :
    ∃ v, (Value.int (.ofNat n), v) ∈ t.entries := by
  obtain ⟨hpos, hlt, hvalue⟩ := h.resolve_left (by omega)
  rw [entries_eq]
  by_cases hslot : n ≤ t.array.size
  · rw [getIndex, if_pos (by simp; omega)] at hvalue
    have hget : t.array.toList[n - 1]? = some (t.array.getD (n - 1) .nil) := by
      have hin : n - 1 < t.array.size := by omega
      simp [hin]
    have hmem := mem_slotEntries 0 hget hvalue
    rw [show 0 + (n - 1) + 1 = n by omega] at hmem
    exact ⟨_, List.mem_append_left _ hmem⟩
  · rw [getIndex, if_neg (by simp; omega)] at hvalue
    have hnone : t.slot? (.ofNat n) = none := by
      rw [slot?, Int64.toInt_ofNat_of_lt (by omega)]
      exact if_neg (by simp; omega)
    cases hfind : t.findNode (.int (.ofNat n)) with
    | none => simp [getKey, hnone, hfind] at hvalue
    | some i =>
      simp only [getKey, hnone, hfind] at hvalue
      exact ⟨_, List.mem_append_right _ (mem_nodeEntries hfind (by simp) hvalue)⟩

/-! ## Looking for a border again -/

/-- A bisection below an index that is absent ends in front of one. -/
theorem absent_bisect_succ {absent : Nat → Bool} {fuel low high : Nat} (hlow : low < high)
    (hfuel : high - low ≤ 2 ^ fuel) (habsent : absent high = true) :
    absent (bisect absent fuel low high + 1) = true := by
  induction fuel generalizing low high with
  | zero =>
    have hnext : low + 1 = high := by omega
    rwa [bisect, hnext]
  | succ fuel ih =>
    rw [bisect]
    split
    · have hnext : low + 1 = high := by omega
      rwa [hnext]
    · simp only
      split
      · rename_i hmiddle
        exact ih (by omega) (by omega) hmiddle
      · exact ih (by omega) (by omega) habsent

/-- Looking for a border again finds the same one at the same place. -/
def Steady (t : Table) : Prop := t.length.2.length = t.length

/-- The length of a table of items with nothing at their end is in front of an empty slot. -/
theorem HoldsItems.length_of_empty {values : List Value} (h : t.HoldsItems values)
    (hsmall : values.length < 2 ^ 63) (hpos : 0 < values.length)
    (hempty : t.slotIsEmpty values.length = true) :
    ∃ border, t.length = (border, t.remember border) ∧ border < values.length ∧
      t.slotIsEmpty (border + 1) = true ∧ (border = 0 ∨ t.slotIsEmpty border = false) := by
  rw [length]
  simp only [h.limit_eq, hempty, Bool.and_true, decide_eq_true hpos, if_true]
  refine ⟨_, rfl, ?_⟩
  split
  · rename_i hbefore
    simp only [Bool.and_eq_true, decide_eq_true_eq, Bool.not_eq_true'] at hbefore
    have hlast : values.length - 1 + 1 = values.length := by omega
    exact ⟨by omega, hlast.symm ▸ hempty, .inr hbefore.2⟩
  · have hspec : bisect t.slotIsEmpty 64 0 values.length = 0 ∨
        t.slotIsEmpty (bisect t.slotIsEmpty 64 0 values.length) = false :=
      bisect_spec (P := fun n => n = 0 ∨ t.slotIsEmpty n = false) (.inl rfl) fun _ _ => .inr
    exact ⟨bisect_lt hpos, absent_bisect_succ hpos (by omega) hempty, hspec⟩

/-- A table of items remembers nothing that changes its length. -/
theorem HoldsItems.steady {values : List Value} (h : t.HoldsItems values)
    (hsmall : values.length < 2 ^ 63) : t.Steady := by
  by_cases hend : 0 < values.length ∧ t.slotIsEmpty values.length = true
  · obtain ⟨hpos, hempty⟩ := hend
    obtain ⟨border, hlength, hlt, hnext, hborder⟩ := h.length_of_empty hsmall hpos hempty
    rw [Steady, hlength, remember]
    split
    · rename_i hhigh
      simp only [Bool.and_eq_true, decide_eq_true_eq] at hhigh
      have hsize : t.array.size = values.length := by simp [h.array_eq]
      have hfull : t.slotIsEmpty border = false := hborder.resolve_left (by omega)
      -- the limit is at the border now: its slot is in use and the next one is not
      rw [length]
      change (if (decide (border > 0) && t.slotIsEmpty border) = true then _ else
        if border ≠ t.array.size then if t.slotIsEmpty (border + 1) = true then _ else _ else _) = _
      rw [if_neg (by simp [hfull]), if_pos (by omega), if_pos hnext]
    · rw [hlength, remember, if_neg (by assumption)]
  · have hsame : t.length.2 = t := by
      rw [length, h.limit_eq, if_neg (by simpa using hend), if_neg (by simp [h.array_eq])]
    rw [Steady, hsame]

/-- A table of fields remembers nothing. -/
theorem HoldsFields.steady {capacity : Nat} {fields : List (String × Value)}
    (h : t.HoldsFields capacity fields) : t.Steady := by
  rw [Steady, h.length_eq]
  exact h.length_eq

end Sandbox.Script.Table
