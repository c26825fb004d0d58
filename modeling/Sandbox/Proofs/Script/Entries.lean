import Sandbox.Script.Table
import Mathlib.Data.List.Perm.Basic
import Mathlib.Data.List.Count

/-!
# The entries of a table under construction

A new key goes to a node of a table as long as nodes are free. The layout of the nodes is of no
interest outside: what counts is that the entries of the table are the old ones and the new one, in
some order. `Table.Growing` holds of tables to which keys have only been added, and as long as it
does a key finds a node unless all nodes are in use.
-/

namespace Sandbox.Script

/-- Changing one item of a list exchanges what the two items contribute to a selection. -/
theorem perm_filterMap_set {α β : Type} [DecidableEq β] (f : α → Option β) {l : List α} {i : Nat}
    (hi : i < l.length) (x : α) :
    ((f l[i]).toList ++ (l.set i x).filterMap f).Perm ((f x).toList ++ l.filterMap f) := by
  have hsplit : l = l.take i ++ l[i] :: l.drop (i + 1) := by simp
  have hset : l.set i x = l.take i ++ x :: l.drop (i + 1) := by
    rw [List.set_eq_take_append_cons_drop, if_pos hi]
  have hcons (a : α) : (l.take i ++ a :: l.drop (i + 1)).filterMap f =
      (l.take i).filterMap f ++ ((f a).toList ++ (l.drop (i + 1)).filterMap f) := by
    cases h : f a <;> simp [h]
  rw [hset, hcons]
  conv_rhs => rw [hsplit, hcons]
  simp only [List.perm_iff_count, List.count_append]
  intro b
  omega

/-- What a change of one slot does to a look at a slot. -/
theorem getD_setIfInBounds {α : Type} (xs : Array α) (i j : Nat) (x d : α) :
    (xs.setIfInBounds i x).getD j d = if i = j ∧ j < xs.size then x else xs.getD j d := by
  simp only [Array.getD_eq_getD_getElem?, Array.getElem?_setIfInBounds]
  grind

/-- What a modification of one slot does to a look at a slot. -/
theorem getD_modify {α : Type} (xs : Array α) (i j : Nat) (f : α → α) (d : α) :
    (xs.modify i f).getD j d = if i = j ∧ j < xs.size then f (xs.getD j d) else xs.getD j d := by
  simp only [Array.getD_eq_getD_getElem?, Array.getElem?_modify]
  grind

@[simp] theorem Value.isNil_iff {v : Value} : v.isNil = true ↔ v = .nil := by
  cases v <;> simp [Value.isNil]

/-- Keys that are not floats are the same only if they are equal. -/
theorem Value.eq_of_sameKey {a b : Value} (hb : ∀ x, b ≠ .float x)
    (h : a.sameKey b = true) : a = b := by
  cases b with
  | float x => exact absurd rfl (hb x)
  | _ => cases a <;> simp_all [Value.sameKey]

/-- The entry that a node holds, if it is in use. -/
def Node.pair? (n : Node) : Option (Value × Value) :=
  if n.value.isNil then none else some (n.key, n.value)

theorem Node.pair?_of_nil {n : Node} (h : n.value = .nil) : n.pair? = none := by
  rw [pair?, if_pos (Value.isNil_iff.mpr h)]

theorem Node.pair?_of_ne {n : Node} (h : n.value ≠ .nil) : n.pair? = some (n.key, n.value) := by
  rw [pair?, if_neg (mt Value.isNil_iff.mp h)]

namespace Table

/-- The entries that some nodes hold. -/
def entriesOf (nodes : Array Node) : List (Value × Value) := nodes.toList.filterMap Node.pair?

/-- The entries in the nodes of a table. -/
def nodeEntries (t : Table) : List (Value × Value) := entriesOf t.nodes

/-- The entries in an array part whose first slot has the index behind `start`. -/
def slotEntries : Nat → List Value → List (Value × Value)
  | _, [] => []
  | start, v :: rest =>
    if v.isNil then slotEntries (start + 1) rest
    else (.int (.ofNat (start + 1)), v) :: slotEntries (start + 1) rest

/-- A traversal goes through the slots of the array part and then through the nodes. -/
theorem entries_eq (t : Table) : t.entries = slotEntries 0 t.array.toList ++ t.nodeEntries := by
  have hslots (vs : List Value) (start : Nat) :
      ((List.range' start vs.length).filterMap fun i =>
        if (vs.getD (i - start) .nil).isNil then none
        else some (Value.int (.ofNat (i + 1)), vs.getD (i - start) .nil)) = slotEntries start vs := by
    induction vs generalizing start with
    | nil => rfl
    | cons v rest ih =>
      rw [List.length_cons, List.range'_succ, slotEntries, ← ih (start + 1)]
      have htail : (List.range' (start + 1) rest.length).filterMap (fun i =>
          if ((v :: rest).getD (i - start) .nil).isNil then none
          else some (Value.int (.ofNat (i + 1)), (v :: rest).getD (i - start) .nil)) =
          (List.range' (start + 1) rest.length).filterMap (fun i =>
          if (rest.getD (i - (start + 1)) .nil).isNil then none
          else some (Value.int (.ofNat (i + 1)), rest.getD (i - (start + 1)) .nil)) := by
        apply List.filterMap_congr
        intro i hi
        obtain ⟨j, hj⟩ : ∃ j, i = start + 1 + j := ⟨i - (start + 1), by grind⟩
        subst hj
        have h₁ : start + 1 + j - start = j + 1 := by omega
        have h₂ : start + 1 + j - (start + 1) = j := by omega
        rw [h₁, h₂, List.getD_cons_succ]
      rw [List.filterMap_cons, htail]
      cases hv : v.isNil <;> simp [hv]
  have h := hslots t.array.toList 0
  unfold entries nodeEntries entriesOf Node.pair?
  rw [← h]
  simp [List.range_eq_range', Array.getD_eq_getD_getElem?]

/-! ## Places for keys -/

/-- The main position of a key is the position of a node, if there are any. -/
theorem mainPosition_lt {size : Nat} (hsize : 0 < size) (key : Value) :
    mainPosition size key < size := by
  have hmodulo (n : Nat) : modulo size n < size := by
    have hpos : 0 < (size - 1) ||| 1 := Nat.pos_of_ne_zero (by simp)
    have hle : (size - 1) ||| 1 ≤ size := by
      have hdiv : ((size - 1) ||| 1) / 2 = (size - 1) / 2 := by simp [Nat.or_div_two]
      omega
    exact Nat.lt_of_lt_of_le (Nat.mod_lt _ hpos) hle
  cases key with
  | nil => exact hsize
  | bool b => exact Nat.mod_lt _ hsize
  | text s => exact Nat.mod_lt _ hsize
  | _ => exact hmodulo _

/-- A node that the search for a free one finds has no key, and all nodes behind it have one. -/
theorem freeNode_eq_some {nodes : Array Node} {position f : Nat}
    (h : freeNode nodes position = some f) :
    f < position ∧ (nodes.getD f {}).key = .nil ∧
      ∀ i, f < i → i < position → (nodes.getD i {}).key ≠ .nil := by
  induction position with
  | zero => simp [freeNode] at h
  | succ position ih =>
    rw [freeNode] at h
    split at h
    case isTrue hnil =>
      obtain rfl := Option.some.inj h
      exact ⟨Nat.lt_succ_self _, Value.isNil_iff.mp hnil, by omega⟩
    case isFalse hkey =>
      obtain ⟨hlt, hnil, hbehind⟩ := ih h
      refine ⟨by omega, hnil, fun i hi hlast => ?_⟩
      by_cases heq : i = position
      · rw [heq]
        exact fun h => hkey (Value.isNil_iff.mpr h)
      · exact hbehind i hi (by omega)

/-- The search for a free node does not overlook one. -/
theorem exists_freeNode (nodes : Array Node) {position i : Nat} (hi : i < position)
    (hnil : (nodes.getD i {}).key = .nil) : ∃ f, freeNode nodes position = some f := by
  induction position with
  | zero => omega
  | succ position ih =>
    rw [freeNode]
    split
    case isTrue => exact ⟨_, rfl⟩
    case isFalse hkey =>
      have hne : i ≠ position := by
        rintro rfl
        exact hkey (Value.isNil_iff.mpr hnil)
      exact ih (by omega)

/-- A change of a chain leaves the key and the value of every node. -/
theorem getD_modify_next (nodes : Array Node) (i j : Nat) (next : Option Nat) :
    ∃ next', (nodes.modify i fun n => { n with next }).getD j {} =
      { nodes.getD j {} with next := next' } := by
  rw [getD_modify]
  split
  · exact ⟨next, rfl⟩
  · exact ⟨(nodes.getD j {}).next, rfl⟩

/-- Keys have only been added to the nodes: a node without a value has no key, and every node that has
been handed out has one. -/
structure Growing (nodes : Array Node) (free : Nat) : Prop where
  key_eq_nil_iff : ∀ i, (nodes.getD i {}).key = .nil ↔ (nodes.getD i {}).value = .nil
  free_le : free ≤ nodes.size
  handed_out : ∀ i, free ≤ i → i < nodes.size → (nodes.getD i {}).key ≠ .nil

section Growing

variable {nodes : Array Node} {free f i : Nat} {n : Node}

/-- A node may be given an entry. -/
theorem Growing.set (h : Growing nodes free) (hkey : n.key ≠ .nil) (hvalue : n.value ≠ .nil) :
    Growing (nodes.setIfInBounds i n) free := by
  refine ⟨fun j => ?_, by simpa using h.free_le, fun j hj hsize => ?_⟩ <;>
    rw [getD_setIfInBounds] <;> split
  · exact ⟨fun h => absurd h hkey, fun h => absurd h hvalue⟩
  · exact h.key_eq_nil_iff j
  · exact hkey
  · exact h.handed_out j hj (by simpa using hsize)

/-- The chains may be changed. -/
theorem Growing.modify_next (h : Growing nodes free) (next : Option Nat) :
    Growing (nodes.modify i fun n => { n with next }) free := by
  refine ⟨fun j => ?_, by simpa using h.free_le, fun j hj hsize => ?_⟩ <;>
    obtain ⟨next', hget⟩ := getD_modify_next nodes i j next <;> rw [hget]
  · exact h.key_eq_nil_iff j
  · exact h.handed_out j hj (by simpa using hsize)

/-- The free node that is found may be given an entry and counts as handed out then. -/
theorem Growing.use (h : Growing nodes free) (hf : freeNode nodes free = some f)
    (hkey : n.key ≠ .nil) (hvalue : n.value ≠ .nil) : Growing (nodes.setIfInBounds f n) f := by
  obtain ⟨hlt, -, hbehind⟩ := freeNode_eq_some hf
  have hset := h.set (i := f) hkey hvalue
  have hle := h.free_le
  refine ⟨hset.key_eq_nil_iff, by simp; omega, fun j hj hsize => ?_⟩
  by_cases hfree : free ≤ j
  · exact hset.handed_out j hfree hsize
  · rw [getD_setIfInBounds]
    split
    · exact hkey
    · exact hbehind j (by simp at hsize; omega) (by omega)

end Growing

/-- The chains do not matter for the search for a free node. -/
theorem freeNode_modify_next (nodes : Array Node) (i position : Nat) (next : Option Nat) :
    freeNode (nodes.modify i fun n => { n with next }) position = freeNode nodes position := by
  induction position with
  | zero => rfl
  | succ position ih =>
    obtain ⟨next', hget⟩ := getD_modify_next nodes i position next
    rw [freeNode, freeNode, ih, hget]

/-- With fewer entries than nodes, some node has no value. -/
theorem exists_value_eq_nil {nodes : Array Node} (hroom : (entriesOf nodes).length < nodes.size) :
    ∃ i, i < nodes.size ∧ (nodes.getD i {}).value = .nil := by
  by_contra hall
  push Not at hall
  have hlength : (entriesOf nodes).length = nodes.toList.length := by
    rw [entriesOf, List.filterMap_length_eq_length]
    intro n hn
    obtain ⟨i, hi, rfl⟩ := List.getElem_of_mem hn
    have := hall i (by simpa using hi)
    simpa [Node.pair?, show i < nodes.size by simpa using hi] using this
  simp at hlength
  omega

/-- A node that was not in use adds its entry. -/
theorem entriesOf_set_of_nil (nodes : Array Node) {i : Nat} {n : Node} (hi : i < nodes.size)
    (hold : (nodes.getD i {}).value = .nil) (hnew : n.value ≠ .nil) :
    (entriesOf (nodes.setIfInBounds i n)).Perm ((n.key, n.value) :: entriesOf nodes) := by
  have h := perm_filterMap_set Node.pair? (l := nodes.toList) (by simpa using hi) n
  have hnone : nodes[i].pair? = none := Node.pair?_of_nil (by simpa [hi] using hold)
  simpa [entriesOf, hnone, Node.pair?_of_ne hnew] using h

/-- A node that was in use exchanges its entry. -/
theorem entriesOf_set_of_ne (nodes : Array Node) {i : Nat} {n : Node} (old : Node) (hi : i < nodes.size)
    (hget : nodes.getD i {} = old) (hold : old.value ≠ .nil) (hnew : n.value ≠ .nil) :
    ((old.key, old.value) :: entriesOf (nodes.setIfInBounds i n)).Perm
      ((n.key, n.value) :: entriesOf nodes) := by
  have h := perm_filterMap_set Node.pair? (l := nodes.toList) (by simpa using hi) n
  have hsome : nodes[i].pair? = some (old.key, old.value) := by
    rw [show nodes[i] = old by simpa [hi] using hget, Node.pair?_of_ne hold]
  simpa [entriesOf, hsome, Node.pair?_of_ne hnew] using h

/-- The chains do not matter for the entries. -/
theorem entriesOf_modify_next (nodes : Array Node) (i : Nat) (next : Option Nat) :
    entriesOf (nodes.modify i fun n => { n with next }) = entriesOf nodes := by
  unfold entriesOf
  rw [Array.toList_modify]
  induction nodes.toList generalizing i with
  | nil => simp
  | cons n rest ih => cases i <;> simp [List.filterMap_cons, Node.pair?, ih]

section Place

variable {nodes : Array Node} {free f home : Nat} {there : Node} {key value : Value}
  (h : Growing nodes free) (hhome : home < nodes.size) (hthere : nodes.getD home {} = there)
  (hempty : there.value ≠ .nil) (hf : freeNode nodes free = some f)
  (hkey : key ≠ .nil) (hvalue : value ≠ .nil)

include h

/-- With fewer entries than nodes, there is a free node. -/
theorem Growing.exists_freeNode (hroom : (entriesOf nodes).length < nodes.size) :
    ∃ f, freeNode nodes free = some f := by
  obtain ⟨i, hi, hnil⟩ := exists_value_eq_nil hroom
  have hunused := (h.key_eq_nil_iff i).mpr hnil
  have hfree : i < free := by
    by_contra hle
    exact h.handed_out i (by omega) hi hunused
  exact Table.exists_freeNode nodes hfree hunused

include hhome hthere hempty hf hkey hvalue

/-- The new key goes to the free node. -/
theorem Growing.extend :
    Growing ((nodes.setIfInBounds f ⟨key, value, there.next⟩).setIfInBounds home
        { there with next := some f }) f ∧
      (entriesOf ((nodes.setIfInBounds f ⟨key, value, there.next⟩).setIfInBounds home
        { there with next := some f })).Perm ((key, value) :: entriesOf nodes) := by
  obtain ⟨hlt, hunused, -⟩ := freeNode_eq_some hf
  have hfsize : f < nodes.size := Nat.lt_of_lt_of_le hlt h.free_le
  have hkeyThere : there.key ≠ .nil := hthere ▸ mt (h.key_eq_nil_iff home).mp (hthere ▸ hempty)
  have hne : f ≠ home := by
    rintro rfl
    exact hkeyThere (hthere ▸ hunused)
  refine ⟨(h.use hf hkey hvalue).set hkeyThere hempty, ?_⟩
  have hadded := entriesOf_set_of_nil nodes (n := ⟨key, value, there.next⟩) hfsize
    ((h.key_eq_nil_iff f).mp hunused) hvalue
  have hlinked := entriesOf_set_of_ne (nodes.setIfInBounds f ⟨key, value, there.next⟩)
    (n := { there with next := some f }) (i := home) there (by simpa using hhome)
    (by rw [getD_setIfInBounds, if_neg (by simp [hne]), hthere]) hempty hempty
  exact hlinked.cons_inv.trans hadded

/-- The key at the main position of the new one moves to the free node. -/
theorem Growing.displace (before : Nat) :
    Growing (((nodes.modify before fun n => { n with next := some f }).setIfInBounds f
        there).setIfInBounds home { key, value }) f ∧
      (entriesOf (((nodes.modify before fun n => { n with next := some f }).setIfInBounds f
        there).setIfInBounds home { key, value })).Perm ((key, value) :: entriesOf nodes) := by
  obtain ⟨hlt, hunused, -⟩ := freeNode_eq_some hf
  have hfsize : f < nodes.size := Nat.lt_of_lt_of_le hlt h.free_le
  have hkeyThere : there.key ≠ .nil := hthere ▸ mt (h.key_eq_nil_iff home).mp (hthere ▸ hempty)
  have hne : f ≠ home := by
    rintro rfl
    exact hkeyThere (hthere ▸ hunused)
  have hf' := (freeNode_modify_next nodes before free (some f)).trans hf
  refine ⟨((h.modify_next (some f)).use hf' hkeyThere hempty).set hkey hvalue, ?_⟩
  have hentries := entriesOf_modify_next nodes before (some f)
  obtain ⟨_, hgetFree⟩ := getD_modify_next nodes before f (some f)
  obtain ⟨next, hgetHome⟩ := getD_modify_next nodes before home (some f)
  have hsize : (nodes.modify before fun n => { n with next := some f }).size = nodes.size :=
    Array.size_modify
  generalize nodes.modify before _ = linked at hentries hgetFree hgetHome hsize ⊢
  have hmoved := entriesOf_set_of_nil linked (n := there) (hsize ▸ hfsize)
    (by rw [hgetFree]; exact (h.key_eq_nil_iff f).mp hunused) hempty
  have hadded := entriesOf_set_of_ne (linked.setIfInBounds f there) (n := ⟨key, value, none⟩)
    (i := home) { there with next } (by simpa [hsize] using hhome)
    (by rw [getD_setIfInBounds, if_neg (by simp [hne]), hgetHome, hthere]) hempty hvalue
  have hswap := hadded.trans ((hmoved.cons (key, value)).trans (List.Perm.swap ..))
  rw [hentries] at hswap
  exact hswap.cons_inv

end Place

/-- In a growing table with fewer entries than nodes, a new key finds a node, and the entries are the
old ones and the new one. -/
theorem Growing.placeKey {t : Table} (h : Growing t.nodes t.free) {key value : Value}
    (hkey : key ≠ .nil) (hvalue : value ≠ .nil)
    (hroom : (entriesOf t.nodes).length < t.nodes.size) :
    ∃ nodes free, t.placeKey key value = some { t with nodes, free } ∧ Growing nodes free ∧
      nodes.size = t.nodes.size ∧ (entriesOf nodes).Perm ((key, value) :: entriesOf t.nodes) := by
  have hhome : mainPosition t.nodes.size key < t.nodes.size := mainPosition_lt (by omega) key
  simp only [Table.placeKey, Array.set!_eq_setIfInBounds]
  generalize mainPosition t.nodes.size key = home at hhome ⊢
  generalize hthere : t.nodes.getD home {} = there
  by_cases hempty : there.value = .nil
  · have hperm := entriesOf_set_of_nil t.nodes (n := { there with key, value }) hhome (hthere ▸ hempty) hvalue
    refine ⟨_, t.free, if_pos ?_, h.set hkey hvalue, by simp, hperm⟩
    simp only [ne_eq, Bool.and_eq_true, decide_eq_true_eq, Value.isNil_iff]
    exact ⟨by omega, hempty⟩
  · obtain ⟨f, hf⟩ := h.exists_freeNode hroom
    rw [if_neg (by simp only [Bool.and_eq_true, Value.isNil_iff, hempty, and_false, not_false_iff])]
    simp only [hf]
    split
    case isTrue =>
      obtain ⟨hgrowing, hperm⟩ := h.displace hhome hthere hempty hf hkey hvalue _
      exact ⟨_, f, rfl, hgrowing, by simp, hperm⟩
    case isFalse =>
      obtain ⟨hgrowing, hperm⟩ := h.extend hhome hthere hempty hf hkey hvalue
      exact ⟨_, f, rfl, hgrowing, by simp, hperm⟩

/-! ## Finding keys -/

/-- A chain is searched for a node with the key. -/
theorem sameKey_of_findInChain {nodes : Array Node} {key : Value} {fuel position i : Nat}
    (h : findInChain nodes key fuel position = some i) :
    i < nodes.size ∧ (nodes.getD i {}).key.sameKey key = true := by
  induction fuel generalizing position with
  | zero => simp [findInChain] at h
  | succ fuel ih =>
    rw [findInChain] at h
    split at h
    · simp at h
    · rename_i node hnode
      split at h
      · rename_i hsame
        obtain rfl := Option.some.inj h
        obtain ⟨hlt, rfl⟩ := Array.getElem?_eq_some_iff.mp hnode
        exact ⟨hlt, by simpa [hlt] using hsame⟩
      · split at h
        · exact ih h
        · simp at h

/-- No node is found for a key without an entry. -/
theorem Growing.findNode_eq_none {t : Table} (h : Growing t.nodes t.free) {key : Value}
    (hkey : key ≠ .nil) (hfloat : ∀ x, key ≠ .float x)
    (hnew : ∀ e ∈ entriesOf t.nodes, e.1 ≠ key) : t.findNode key = none := by
  rw [findNode]
  split
  · rfl
  · refine Option.eq_none_iff_forall_ne_some.mpr fun i hi => ?_
    obtain ⟨hlt, hsame⟩ := sameKey_of_findInChain hi
    have heq := Value.eq_of_sameKey hfloat hsame
    have hvalue : (t.nodes.getD i {}).value ≠ .nil := fun hnil =>
      hkey (heq ▸ (h.key_eq_nil_iff i).mpr hnil)
    refine hnew _ (List.mem_filterMap.mpr ⟨t.nodes.getD i {}, ?_, Node.pair?_of_ne hvalue⟩) heq
    simp [hlt]

/-! ## Tables that hold fields -/

/-- The table has been made with room for `capacity` fields, and these fields, whose keys are texts,
have been set in it. -/
structure HoldsFields (t : Table) (capacity : Nat) (fields : List (String × Value)) : Prop where
  array_eq : t.array = #[]
  limit_eq : t.limit = 0
  metatable_eq : t.metatable = none
  growing : Growing t.nodes t.free
  capacity_le : capacity ≤ t.nodes.size
  perm : (entriesOf t.nodes).Perm (fields.map fun e => (Value.ofString e.1, e.2))

/-- New nodes are as many as asked for, or more. -/
theorem freshNodes_eq (count : Nat) :
    ∃ size, freshNodes count = Array.replicate size {} ∧ count ≤ size := by
  unfold freshNodes
  split
  · exact ⟨0, rfl, by omega⟩
  · refine ⟨_, rfl, ?_⟩
    unfold ceilLog2
    split
    · omega
    · have := Nat.lt_log2_self (n := count - 1)
      omega

/-- A new table holds nothing. -/
theorem holdsFields_withSizes (capacity : Nat) : (withSizes 0 capacity).HoldsFields capacity [] := by
  obtain ⟨size, hnodes, hle⟩ := freshNodes_eq capacity
  have hget (i : Nat) : (Array.replicate size ({} : Node)).getD i {} = {} := by
    by_cases hi : i < size <;> simp [hi]
  have hentries : entriesOf (Array.replicate size {}) = [] := by
    simp [entriesOf, Node.pair?_of_nil]
  simp only [withSizes, hnodes]
  refine ⟨rfl, rfl, rfl, ⟨fun i => by simp only [hget], Nat.le_refl _, fun i hfree hi => ?_⟩, ?_, ?_⟩
  · exact absurd hi (Nat.not_lt_of_le hfree)
  · simpa using hle
  · simp [hentries]

/-- The order of the fields does not matter. -/
theorem HoldsFields.of_perm {t : Table} {capacity : Nat} {fields fields' : List (String × Value)}
    (h : t.HoldsFields capacity fields) (hperm : fields.Perm fields') :
    t.HoldsFields capacity fields' :=
  { h with perm := h.perm.trans (hperm.map _) }

/-- Setting a new field adds it, unless there is nothing to set. -/
theorem HoldsFields.setText {t : Table} {capacity : Nat} {fields : List (String × Value)}
    (h : t.HoldsFields capacity fields) {key : String} (value : Value)
    (hnew : key ∉ fields.map (·.1)) (hroom : fields.length < capacity) :
    (t.setText key value).HoldsFields capacity
      (if value.isNil then fields else (key, value) :: fields) := by
  have hfind : t.findNode (.ofString key) = none := by
    refine h.growing.findNode_eq_none (by simp [Value.ofString]) (by simp [Value.ofString]) ?_
    intro e he heq
    obtain ⟨f, hf, rfl⟩ := List.mem_map.mp (h.perm.mem_iff.mp he)
    refine hnew (List.mem_map.mpr ⟨f, hf, ?_⟩)
    simpa [Value.ofString, String.toByteArray_inj] using heq
  have habsent : t.setExisting (.ofString key) value = none := by
    rw [setExisting, hfind]
    · rfl
    · simp [Value.ofString]
  rw [Table.setText, setKey]
  simp only [habsent]
  split
  case isTrue => exact h
  case isFalse hvalue =>
    have hlength := h.perm.length_eq
    rw [List.length_map] at hlength
    obtain ⟨nodes, free, hplace, hgrowing, hsize, hperm⟩ := h.growing.placeKey
      (show Value.ofString key ≠ .nil by simp [Value.ofString]) (mt Value.isNil_iff.mpr hvalue)
      (by have := h.capacity_le; omega)
    simp only [hplace]
    exact ⟨h.array_eq, h.limit_eq, h.metatable_eq, hgrowing, by simpa [hsize] using h.capacity_le,
      hperm.trans (h.perm.cons _)⟩

/-- A table of fields has no entry in the place of an index. -/
theorem HoldsFields.getIndex {t : Table} {capacity : Nat} {fields : List (String × Value)}
    (h : t.HoldsFields capacity fields) (n : Nat) : t.getIndex n = .nil := by
  have hfind : t.findNode (.int (.ofNat n)) = none := by
    refine h.growing.findNode_eq_none (by simp) (by simp) fun e he => ?_
    obtain ⟨f, -, rfl⟩ := List.mem_map.mp (h.perm.mem_iff.mp he)
    simp [Value.ofString]
  have hsize : t.array.size = 0 := by simp [h.array_eq]
  have hslot : t.slot? (.ofNat n) = none := by
    rw [slot?, if_neg]
    simp only [hsize, Bool.and_eq_true, decide_eq_true_eq]
    omega
  rw [Table.getIndex, if_neg (by simp [hsize]; omega), getKey, hslot]
  simp [hfind]

/-- A table of fields has no length. -/
theorem HoldsFields.length_eq {t : Table} {capacity : Nat} {fields : List (String × Value)}
    (h : t.HoldsFields capacity fields) : t.length = (0, t) := by
  have hsize : t.array.size = 0 := by simp [h.array_eq]
  have hborder : t.borderInNodes = 0 := by
    simp [borderInNodes, hsize, isAbsent, h.getIndex, Value.isNil]
  simp [Table.length, h.limit_eq, hsize, hborder]

/-- The entries of a table of fields are the fields, in some order. -/
theorem HoldsFields.entries_perm {t : Table} {capacity : Nat} {fields : List (String × Value)}
    (h : t.HoldsFields capacity fields) :
    t.entries.Perm (fields.map fun e => (Value.ofString e.1, e.2)) := by
  rw [entries_eq, h.array_eq]
  exact h.perm

/-! ## Tables that hold items -/

/-- The table has been made with a slot for each of these values and has no nodes. -/
structure HoldsItems (t : Table) (values : List Value) : Prop where
  array_eq : t.array = values.toArray
  limit_eq : t.limit = values.length
  nodes_eq : t.nodes = #[]
  metatable_eq : t.metatable = none

/-- The slots of a new table are empty. -/
theorem holdsItems_withSizes (size : Nat) :
    (withSizes size 0).HoldsItems (List.replicate size .nil) :=
  ⟨by simp [withSizes], by simp [withSizes], rfl, rfl⟩

/-- Setting an index fills its slot. -/
theorem HoldsItems.setIndex {t : Table} {done rest : List Value} {old : Value}
    (h : t.HoldsItems (done ++ old :: rest)) (value : Value) (hsmall : done.length + 1 < 2 ^ 63) :
    (t.setIndex (done.length + 1) value).HoldsItems (done ++ value :: rest) := by
  have hslot : t.slot? (.ofNat (done.length + 1)) = some done.length := by
    rw [slot?, Int64.toInt_ofNat_of_lt hsmall, if_pos]
    · simp
    · simp only [h.array_eq, List.size_toArray, List.length_append, List.length_cons,
        Bool.and_eq_true, decide_eq_true_eq]
      omega
  have hset : t.setIndex (done.length + 1) value =
      { t with array := t.array.setIfInBounds done.length value } := by
    simp only [Table.setIndex, setKey, setExisting, hslot, Array.set!_eq_setIfInBounds]
  rw [hset]
  refine ⟨?_, by simpa using h.limit_eq, h.nodes_eq, h.metatable_eq⟩
  simp only [h.array_eq, List.setIfInBounds_toArray]
  simp

/-- The length of a table of items is their number, if the last one is not nil. -/
theorem HoldsItems.length_eq {t : Table} {values : List Value} (h : t.HoldsItems values)
    (hlast : values.getLast? ≠ some .nil) : t.length = (values.length, t) := by
  have hsize : t.array.size = values.length := by simp [h.array_eq]
  have hborder : t.borderInNodes = values.length := by simp [borderInNodes, h.nodes_eq, hsize]
  have hslot (hpos : 0 < values.length) : t.slotIsEmpty values.length = false := by
    have hget : t.array.getD (values.length - 1) .nil = values[values.length - 1] := by
      simp [h.array_eq, show values.length - 1 < values.length by omega]
    rw [slotIsEmpty, hget, Bool.eq_false_iff, ne_eq, Value.isNil_iff]
    rw [List.getLast?_eq_getElem?, List.getElem?_eq_getElem (by omega)] at hlast
    exact fun heq => hlast (congrArg some heq)
  by_cases hpos : 0 < values.length
  · simp [Table.length, h.limit_eq, hsize, hborder, hslot hpos]
  · simp [Table.length, h.limit_eq, hsize, hborder, hpos]

/-- The entries of a table of items are the items that are not nil, each with its index. -/
theorem HoldsItems.entries_eq {t : Table} {values : List Value} (h : t.HoldsItems values) :
    t.entries = slotEntries 0 values := by
  rw [Table.entries_eq, nodeEntries, h.nodes_eq, h.array_eq]
  simp [entriesOf]

end Table
end Sandbox.Script
