import Sandbox.Proofs.Script.Lookup

/-!
# Tables that grow

A table in which no node is free for a new key gets new sizes, and its entries are set anew. They all
find room, since the new sizes are reckoned from the number of keys: what does not fit into the new array
part has a node. So a table that has grown gives the same for each key as before, and to set a key is to
set this key whether the table has to grow for it or not.
-/

namespace Sandbox.Script.Table

variable {t t' acc : Table} {key other value v : Value} {arraySize nodeCount i n : Nat}
  {entries : List (Value × Value)}

/-- A key is an index of an array part. -/
def fits (arraySize : Nat) : Value → Bool
  | .int n => 1 ≤ n.toInt && n.toInt ≤ arraySize
  | _ => false

theorem slotOf?_eq_none_iff : t.slotOf? key = none ↔ fits t.array.size key = false := by
  cases key with
  | int n =>
    simp only [slotOf?, slot?, fits, ite_eq_right_iff, reduceCtorEq, imp_false, Bool.not_eq_true]
  | _ => simp [slotOf?, fits]

/-! ## Room for keys -/

/-- There is room for some more keys in the nodes of a table to which keys have only been added. -/
structure Room (t : Table) (count : Nat) : Prop where
  sound : t.Sound
  growing : Growing t.nodes t.free
  enough : (entriesOf t.nodes).length + count ≤ t.nodes.size

/-- How many nodes a key takes. -/
def nodesFor (arraySize : Nat) (key : Value) : Nat := if fits arraySize key then 0 else 1

/-- A node that holds an entry may get another value, and the nodes hold as many entries. -/
theorem Growing.revalue {nodes : Array Node} {free : Nat} (h : Growing nodes free) (hi : i < nodes.size)
    (hkey : (nodes.getD i {}).key ≠ .nil) (hvalue : value ≠ .nil) :
    Growing (nodes.modify i fun n => { n with value }) free ∧
      (entriesOf (nodes.modify i fun n => { n with value })).length = (entriesOf nodes).length := by
  have hmodify : nodes.modify i (fun n => { n with value }) =
      nodes.setIfInBounds i { nodes.getD i {} with value } := by
    refine Array.ext (by simp) fun j hj _ => ?_
    rw [Array.getElem_modify (by simpa using hj), Array.getElem_setIfInBounds (by simpa using hj)]
    split
    case isTrue heq => simp [heq]
    case isFalse => rfl
  have hold : (nodes.getD i {}).value ≠ .nil := mt (h.key_eq_nil_iff i).mpr hkey
  have hlength := (entriesOf_set_of_ne nodes (n := { nodes.getD i {} with value }) _ hi rfl hold
    hvalue).length_eq
  rw [hmodify]
  exact ⟨h.set hkey hvalue, Nat.succ.inj hlength⟩

/-- To set a key that has a slot or a node leaves the room that there is. -/
theorem Room.setExisting (h : acc.Room n) (hkey : key.IsKey) (hvalue : value ≠ .nil)
    (hset : acc.setExisting key value = some t) : t.Room n ∧ t.array.size = acc.array.size := by
  have hsound := (h.sound.setExisting hkey hset).sound
  rw [setExisting_eq] at hset
  split at hset
  case h_1 i hslot =>
    obtain rfl := Option.some.inj hset
    exact ⟨⟨hsound, h.growing, h.enough⟩, by simp⟩
  case h_2 hslot =>
    obtain ⟨i, hfind, rfl⟩ := Option.map_eq_some_iff.mp hset
    have hi := (h.sound.findNode_eq_some_iff hkey).mp hfind
    have hused : (nodeOf acc.nodes i).key ≠ .nil := hi ▸ hkey.ne_nil
    obtain ⟨hgrowing, hlength⟩ := h.growing.revalue (lt_of_key_ne_nil hused) hused hvalue
    refine ⟨⟨hsound, hgrowing, ?_⟩, rfl⟩
    simpa only [hlength, Array.size_modify] using h.enough

/-- A key for which there is room is set, and there is room for the others. -/
theorem Room.setWithRoom (h : acc.Room (nodesFor acc.array.size key + n)) (hkey : key.IsKey)
    (hvalue : value ≠ .nil) :
    acc.IsSet key value (acc.setWithRoom key value) ∧ (acc.setWithRoom key value).Room n ∧
      (acc.setWithRoom key value).array.size = acc.array.size := by
  have henough := h.enough
  cases hset : acc.setExisting key value with
  | some t' =>
    have hresult : acc.setWithRoom key value = t' := by rw [Table.setWithRoom, hset]
    have hroom : acc.Room n := ⟨h.sound, h.growing, by omega⟩
    rw [hresult]
    exact ⟨h.sound.setExisting hkey hset, hroom.setExisting hkey hvalue hset⟩
  | none =>
    have hslot : fits acc.array.size key = false := by
      rw [← slotOf?_eq_none_iff]
      rw [setExisting_eq] at hset
      split at hset
      case h_1 => cases hset
      case h_2 hslot => exact hslot
    rw [nodesFor, hslot] at henough
    simp only [Bool.false_eq_true, if_false] at henough
    obtain ⟨nodes, free, hplace, hgrowing, hsize, hperm⟩ :=
      h.growing.placeKey hkey.ne_nil hvalue (by omega)
    have hisSet := h.sound.placeKey hkey hset hplace
    have hresult : acc.setWithRoom key value = { acc with nodes, free } := by
      simp only [Table.setWithRoom, hset, hplace, if_neg (mt Value.isNil_iff.mp hvalue),
        Option.getD_some]
    have hlength := hperm.length_eq
    rw [hresult]
    refine ⟨hisSet, ⟨hisSet.sound, hgrowing, ?_⟩, rfl⟩
    simp only [List.length_cons] at hlength ⊢
    omega

/-- How many nodes the keys of some entries take. -/
def nodesForAll (arraySize : Nat) (entries : List (Value × Value)) : Nat :=
  entries.countP fun e => !fits arraySize e.1

/-- Entries for which there is room are set one after the other. -/
theorem Room.foldl (h : acc.Room (nodesForAll acc.array.size entries + n))
    (hentries : ∀ e ∈ entries, e.1.IsKey ∧ e.2 ≠ .nil) :
    ∃ t, entries.foldl (fun acc e => acc.setWithRoom e.1 e.2) acc = t ∧ t.Room n ∧
      t.array.size = acc.array.size ∧ ∀ other, other.IsKey →
        (other, t.getKey other) ∈ entries ∨
          other ∉ entries.map (·.1) ∧ t.getKey other = acc.getKey other := by
  induction entries generalizing acc with
  | nil => exact ⟨acc, rfl, by simpa [nodesForAll] using h, rfl, fun other _ => by simp⟩
  | cons e rest ih =>
    obtain ⟨hkey, hvalue⟩ := hentries e (by simp)
    have hcount : nodesForAll acc.array.size (e :: rest) =
        nodesFor acc.array.size e.1 + nodesForAll acc.array.size rest := by
      simp only [nodesForAll, nodesFor, List.countP_cons]
      cases fits acc.array.size e.1 <;> simp [Nat.add_comm]
    rw [hcount, Nat.add_assoc] at h
    obtain ⟨hisSet, hroom, hsize⟩ := h.setWithRoom hkey hvalue
    obtain ⟨t, hfold, hresult, hsize', hget⟩ :=
      ih (hsize ▸ hroom) fun e he => hentries e (List.mem_cons_of_mem _ he)
    refine ⟨t, hfold, hresult, hsize'.trans hsize, fun other hother => ?_⟩
    rcases hget other hother with hmem | ⟨hnot, heq⟩
    · exact .inl (List.mem_cons_of_mem _ hmem)
    · rw [hisSet.getKey other hother] at heq
      by_cases hsame : other = e.1
      · subst hsame
        rw [heq, if_pos rfl]
        exact .inl (by simp)
      · rw [if_neg hsame] at heq
        exact .inr ⟨by simp [hsame, hnot], heq⟩

/-! ## New sizes -/

/-- The table from which entries are set anew: the slots that stay, and nodes without keys. -/
def kept (t : Table) (arraySize nodeCount : Nat) : Table where
  array := t.array.extract 0 arraySize ++ Array.replicate (arraySize - t.array.size) .nil
  limit := arraySize
  nodes := freshNodes nodeCount
  free := (freshNodes nodeCount).size
  metatable := t.metatable

theorem resize_eq (t : Table) (arraySize nodeCount : Nat) :
    t.resize arraySize nodeCount =
      (t.entriesBehind arraySize).foldl (fun acc e => acc.setWithRoom e.1 e.2)
        (t.kept arraySize nodeCount) := rfl

theorem size_array_kept (t : Table) (arraySize nodeCount : Nat) :
    (t.kept arraySize nodeCount).array.size = arraySize := by
  simp only [kept, Array.size_append, Array.size_extract, Array.size_replicate]
  omega

theorem nodeOf_replicate (size i : Nat) : nodeOf (Array.replicate size {}) i = {} := by
  by_cases hi : i < size <;> simp [nodeOf, hi]

/-- Nodes without keys have room for as many keys. -/
theorem room_of_fresh {size : Nat} (hnodes : t.nodes = Array.replicate size {})
    (hfree : t.free = size) : t.Room size := by
  have hget (i : Nat) : nodeOf t.nodes i = {} := by rw [hnodes, nodeOf_replicate]
  have hkey (i : Nat) : (nodeOf t.nodes i).key = .nil := by rw [hget]
  have hsize : t.nodes.size = size := by simp [hnodes]
  refine ⟨⟨?_, by omega, fun i n hi => ?_⟩, ⟨fun i => ?_, by omega, fun i hi hlt => ?_⟩, ?_⟩
  · constructor <;> simp [hget]
  · simp [hkey] at hi
  · change (nodeOf t.nodes i).key = _ ↔ (nodeOf t.nodes i).value = _
    rw [hget]
  · omega
  · simp [hnodes, entriesOf, Node.pair?]

theorem room_kept (t : Table) {arraySize nodeCount : Nat} (hn : n ≤ nodeCount) :
    (t.kept arraySize nodeCount).Room n := by
  obtain ⟨size, hnodes, hle⟩ := freshNodes_eq nodeCount
  have hroom : (t.kept arraySize nodeCount).Room size :=
    room_of_fresh hnodes (by simp [kept, hnodes])
  exact ⟨hroom.sound, hroom.growing, by have := hroom.enough; omega⟩

/-- What entries are set anew: they are in slots behind the new array part or in nodes. -/
theorem mem_entriesBehind_iff :
    (key, v) ∈ t.entriesBehind arraySize ↔
      (∃ i, arraySize ≤ i ∧ i < t.array.size ∧ key = .int (.ofNat (i + 1)) ∧
        t.array.getD i .nil = v ∧ v ≠ .nil) ∨
      ∃ i, (nodeOf t.nodes i).key = key ∧ (nodeOf t.nodes i).value = v ∧ v ≠ .nil := by
  unfold entriesBehind
  simp only [List.mem_append, List.mem_filterMap, List.mem_range]
  refine or_congr ⟨?_, ?_⟩ ⟨?_, ?_⟩
  · rintro ⟨i, hi, hentry⟩
    split at hentry
    · cases hentry
    · rename_i hvalue
      obtain ⟨rfl, rfl⟩ := Prod.mk.inj (Option.some.inj hentry)
      exact ⟨arraySize + i, by omega, by omega, rfl, rfl, mt Value.isNil_iff.mpr hvalue⟩
  · rintro ⟨i, hle, hlt, rfl, rfl, hvalue⟩
    refine ⟨i - arraySize, by omega, ?_⟩
    rw [Nat.add_sub_cancel' hle, if_neg (mt Value.isNil_iff.mp hvalue)]
  · rintro ⟨node, hnode, hentry⟩
    split at hentry
    · cases hentry
    · rename_i hvalue
      obtain ⟨rfl, rfl⟩ := Prod.mk.inj (Option.some.inj hentry)
      obtain ⟨i, hi, rfl⟩ := List.getElem_of_mem hnode
      have hlt : i < t.nodes.size := by simpa using hi
      exact ⟨i, by simp [nodeOf, hlt], by simp [nodeOf, hlt], mt Value.isNil_iff.mpr hvalue⟩
  · rintro ⟨i, rfl, rfl, hvalue⟩
    have hlt : i < t.nodes.size := by
      by_contra hle
      simp [nodeOf, hle] at hvalue
    refine ⟨nodeOf t.nodes i, by simp [nodeOf, hlt], ?_⟩
    rw [if_neg (mt Value.isNil_iff.mp hvalue)]

/-- The key is no index, or the array part is no larger than the range of indices. -/
def Indexed (t : Table) (key : Value) : Prop := (∀ n, key ≠ .int n) ∨ t.array.size < 2 ^ 63

/-- An entry that is set anew gives the value that the table gives for its key. -/
theorem Sound.getKey_of_mem (h : t.Sound) (hkey : key.IsKey) (hindexed : t.Indexed key)
    (hmem : (key, v) ∈ t.entriesBehind arraySize) : t.getKey key = v := by
  rw [getKey_eq hkey.ne_nil]
  rcases mem_entriesBehind_iff.mp hmem with ⟨i, -, hlt, rfl, rfl, -⟩ | ⟨i, hi, hvalue, -⟩
  · have hsmall : t.array.size < 2 ^ 63 := hindexed.resolve_left fun hnot => hnot _ rfl
    have hslot : t.slotOf? (.int (.ofNat (i + 1))) = some i :=
      slotOf?_eq_some_iff.mpr ⟨_, rfl, Int64.toInt_ofNat_of_lt (by omega), hlt⟩
    rw [hslot]
  · have hslot : t.slotOf? key = none := by
      cases key with
      | int n => exact h.apart i n hi
      | _ => rfl
    rw [hslot]
    exact h.nodeValue_eq_of_holds hkey (.inl ⟨i, hi, hvalue⟩)

/-- A slot that stays keeps its value, and a new one has none. -/
theorem getD_kept (t : Table) {arraySize : Nat} (nodeCount : Nat) (hi : i < arraySize) :
    (t.kept arraySize nodeCount).array.getD i .nil = t.array.getD i .nil := by
  simp only [kept, Array.getD_eq_getD_getElem?, Array.getElem?_append, Array.getElem?_extract,
    Array.size_extract, Array.getElem?_replicate]
  grind

theorem nodeValue_kept (t : Table) (arraySize nodeCount : Nat) (hkey : key.IsKey) :
    (t.kept arraySize nodeCount).nodeValue key = .nil := by
  refine (room_kept t (Nat.zero_le _)).sound.nodeValue_eq_of_holds hkey (.inr ⟨rfl, fun i hi => ?_⟩)
  obtain ⟨size, hfresh, -⟩ := freshNodes_eq nodeCount
  have hnil : (nodeOf (t.kept arraySize nodeCount).nodes i).key = .nil := by
    rw [kept, hfresh, nodeOf_replicate]
  exact hkey.ne_nil (hi.symm.trans hnil)

/-- What the table gives for a key after the change of its sizes, before any entry is set anew. -/
theorem getKey_kept (t : Table) (arraySize nodeCount : Nat) (hkey : key.IsKey) :
    (t.kept arraySize nodeCount).getKey key =
      if fits arraySize key = true ∧ t.slotOf? key ≠ none then t.getKey key else .nil := by
  rw [getKey_eq hkey.ne_nil, getKey_eq hkey.ne_nil, nodeValue_kept t arraySize nodeCount hkey]
  cases hkept : (t.kept arraySize nodeCount).slotOf? key with
  | none =>
    rw [slotOf?_eq_none_iff, size_array_kept] at hkept
    simp [hkept]
  | some i =>
    obtain ⟨n, rfl, hn, hlt⟩ := slotOf?_eq_some_iff.mp hkept
    rw [size_array_kept] at hlt
    have hfits : fits arraySize (.int n) = true := by
      simp [fits]
      omega
    simp only [getD_kept t nodeCount hlt, hfits, true_and]
    cases hslot : t.slotOf? (.int n) with
    | some j =>
      obtain ⟨_, heq, hj, -⟩ := slotOf?_eq_some_iff.mp hslot
      cases heq
      obtain rfl : i = j := by omega
      rfl
    | none =>
      have hbehind : ¬i < t.array.size := fun hi =>
        Option.some_ne_none i ((slotOf?_eq_some_iff.mpr ⟨n, rfl, hn, hi⟩).symm.trans hslot)
      simp [hbehind]

/-- A key that has a value has an entry to be set anew, or its slot stays. -/
theorem Sound.fits_of_getKey_ne_nil (h : t.Sound) (hkey : key.IsKey) (hvalue : t.getKey key ≠ .nil)
    (hnot : key ∉ (t.entriesBehind arraySize).map (·.1)) :
    fits arraySize key = true ∧ t.slotOf? key ≠ none := by
  have habsent (v : Value) : (key, v) ∉ t.entriesBehind arraySize := fun hmem =>
    hnot (List.mem_map.mpr ⟨_, hmem, rfl⟩)
  rw [getKey_eq hkey.ne_nil] at hvalue
  cases hslot : t.slotOf? key with
  | none =>
    rw [hslot] at hvalue
    rcases h.holds_nodeValue hkey with ⟨i, hi, hthere⟩ | ⟨hnil, -⟩
    · exact absurd (mem_entriesBehind_iff.mpr (.inr ⟨i, hi, hthere, hvalue⟩)) (habsent _)
    · exact absurd hnil hvalue
  | some i =>
    rw [hslot] at hvalue
    refine ⟨?_, Option.some_ne_none i⟩
    obtain ⟨n, rfl, hn, hlt⟩ := slotOf?_eq_some_iff.mp hslot
    by_contra hfits
    have hle : arraySize ≤ i := by
      simp [fits] at hfits
      omega
    have hn' : n = .ofNat (i + 1) := by
      have hsmall := n.toInt_lt
      refine Int64.toInt_inj.mp (hn.trans ?_)
      rw [Int64.toInt_ofNat_of_lt (by omega)]
      rfl
    exact habsent _ (mem_entriesBehind_iff.mpr (.inl ⟨i, hle, hlt, by rw [hn'], rfl, hvalue⟩))

/-- A key that is not set anew has kept its slot or has no value. -/
theorem Sound.getKey_kept (h : t.Sound) (hkey : key.IsKey)
    (hnot : key ∉ (t.entriesBehind arraySize).map (·.1)) :
    (t.kept arraySize nodeCount).getKey key = t.getKey key := by
  rw [Table.getKey_kept t arraySize nodeCount hkey]
  split
  case isTrue => rfl
  case isFalse hlost =>
    by_contra hvalue
    exact hlost (h.fits_of_getKey_ne_nil hkey (Ne.symm hvalue) hnot)

/-- The entries that are set anew have proper keys and values. -/
theorem Sound.isKey_of_mem (h : t.Sound) :
    ∀ e ∈ t.entriesBehind arraySize, e.1.IsKey ∧ e.2 ≠ .nil := by
  rintro ⟨key, v⟩ hmem
  rcases mem_entriesBehind_iff.mp hmem with ⟨i, -, -, rfl, -, hv⟩ | ⟨i, rfl, rfl, hv⟩
  · exact ⟨trivial, hv⟩
  · refine ⟨h.chained.isKey i fun hnil => hv ?_, hv⟩
    rw [h.chained.fresh i hnil]

/-- A table with any new sizes is sound. -/
theorem Sound.sound_resize (h : t.Sound) (arraySize nodeCount : Nat) :
    (t.resize arraySize nodeCount).Sound := by
  have hfold : ∀ entries : List (Value × Value), (∀ e ∈ entries, e.1.IsKey) →
      ∀ acc : Table, acc.Sound → (entries.foldl (fun acc e => acc.setWithRoom e.1 e.2) acc).Sound := by
    intro entries
    induction entries with
    | nil => exact fun _ _ hacc => hacc
    | cons e rest ih =>
      intro hkeys acc hacc
      exact ih (fun e he => hkeys e (List.mem_cons_of_mem _ he)) _
        (hacc.setWithRoom (hkeys e (by simp)) e.2)
  exact hfold _ (fun e he => (h.isKey_of_mem e he).1) _ (room_kept t (Nat.zero_le _)).sound

/-- A table with new sizes that leave room for all entries, and for some more keys, gives the same. -/
theorem Sound.resize (h : t.Sound)
    (hroom : nodesForAll arraySize (t.entriesBehind arraySize) + n ≤ nodeCount) :
    (t.resize arraySize nodeCount).Room n ∧ (t.resize arraySize nodeCount).array.size = arraySize ∧
      ∀ other, other.IsKey → t.Indexed other →
        (t.resize arraySize nodeCount).getKey other = t.getKey other := by
  have hstart : (t.kept arraySize nodeCount).Room
      (nodesForAll (t.kept arraySize nodeCount).array.size (t.entriesBehind arraySize) + n) := by
    rw [size_array_kept]
    exact room_kept t hroom
  obtain ⟨t', hfold, hroom', hsize, hget⟩ := hstart.foldl h.isKey_of_mem
  rw [resize_eq, hfold]
  refine ⟨hroom', hsize.trans (size_array_kept ..), fun other hother hindexed => ?_⟩
  rcases hget other hother with hmem | ⟨hnot, heq⟩
  · exact (h.getKey_of_mem hother hindexed hmem).symm
  · rw [heq]
    exact h.getKey_kept hother hnot

/-! ## The best sizes -/

theorem ceilLog2_le_iff {m c : Nat} : ceilLog2 m ≤ c ↔ m ≤ 2 ^ c := by
  unfold ceilLog2
  have hpos : 0 < 2 ^ c := Nat.two_pow_pos c
  split
  · omega
  · have hlog := Nat.log2_lt (n := m - 1) (k := c) (by omega)
    omega

/-- A key fits into an array part of a power of two if its class is not above the exponent. -/
theorem fits_two_pow_iff {c : Nat} (hc : c ≤ 27) :
    fits (2 ^ c) key = true ↔ ∃ d, sizeClass? key = some d ∧ d ≤ c := by
  cases key with
  | int n =>
    have hpow : 2 ^ c ≤ 2 ^ 27 := Nat.pow_le_pow_right (by omega) hc
    simp only [fits, sizeClass?, Bool.and_eq_true, decide_eq_true_eq, Option.ite_none_right_eq_some,
      Option.some.injEq, and_assoc, exists_eq_left', exists_and_left, ceilLog2_le_iff]
    generalize 2 ^ c = size at hpow
    omega
  | _ => simp [fits, sizeClass?]

/-- The classes count the keys in them. -/
theorem getD_foldl_countKey (keys : List Value) (counts : Array Nat) (c : Nat) (hc : c < counts.size) :
    (keys.foldl countKey counts).getD c 0 =
      counts.getD c 0 + keys.countP fun key => sizeClass? key == some c := by
  induction keys generalizing counts with
  | nil => simp
  | cons key rest ih =>
    rw [List.foldl_cons, ih, List.countP_cons]
    · unfold countKey
      cases hclass : sizeClass? key with
      | none => simp
      | some d =>
        simp only [getD_modify, Option.some_beq_some]
        by_cases heq : d = c
        · subst heq
          simp [hc]
          omega
        · simp [heq]
    · unfold countKey
      split <;> simpa using hc

/-- How many keys are in the classes below one. -/
def countBelow (keys : List Value) (c : Nat) : Nat :=
  keys.countP fun key => (sizeClass? key).any (· < c)

theorem countBelow_succ (keys : List Value) (c : Nat) :
    countBelow keys (c + 1) =
      countBelow keys c + keys.countP fun key => sizeClass? key == some c := by
  induction keys with
  | nil => rfl
  | cons key rest ih =>
    simp only [countBelow, List.countP_cons] at ih ⊢
    rw [ih]
    cases sizeClass? key with
    | none => simp
    | some d =>
      simp only [Option.any_some, decide_eq_true_eq, Option.some_beq_some, beq_iff_eq]
      grind

/-- The keys in the classes up to one are those that fit into the array part of that size. -/
theorem countBelow_eq (keys : List Value) {c : Nat} (hc : c ≤ 27) :
    countBelow keys (c + 1) = keys.countP (fits (2 ^ c)) := by
  refine List.countP_congr fun key _ => ?_
  rw [fits_two_pow_iff hc]
  cases sizeClass? key with
  | none => simp
  | some d => simp only [Option.any_some, decide_eq_true_eq, Option.some.injEq, exists_eq_left',
      Nat.lt_succ_iff]

/-- What is known of the best size so far: its number of keys is that of the keys that fit. -/
theorem considerSize_spec (keys : List Value) (total : Nat) {c : Nat} (hc : c ≤ 28) :
    ∃ best seen going,
      (List.range c).foldl (considerSize (keys.foldl countKey (Array.replicate 28 0)) total)
        ((0, 0), 0, true) = (best, seen, going) ∧
      best.2 = keys.countP (fits best.1) ∧ (going = true → seen = countBelow keys c) := by
  induction c with
  | zero =>
    have hnone : keys.countP (fits 0) = 0 := by
      rw [List.countP_eq_zero]
      intro key _
      cases key with
      | int n => simp [fits]; omega
      | _ => simp [fits]
    exact ⟨(0, 0), 0, true, rfl, hnone.symm, fun _ => by simp [countBelow]⟩
  | succ c ih =>
    obtain ⟨best, seen, going, hfold, hbest, hseen⟩ := ih (by omega)
    rw [List.range_succ, List.foldl_append, hfold, List.foldl_cons, List.foldl_nil, considerSize]
    dsimp only
    split
    case isTrue hgoing =>
      simp only [Bool.and_eq_true] at hgoing
      have hcount : seen + (keys.foldl countKey (Array.replicate 28 0)).getD c 0 =
          countBelow keys (c + 1) := by
        have hlt : c < (Array.replicate 28 0).size := by
          rw [Array.size_replicate]
          omega
        have hzero : (Array.replicate 28 0).getD c 0 = 0 := by
          rw [Array.getD_eq_getD_getElem?, Array.getElem?_eq_getElem hlt]
          exact Array.getElem_replicate hlt
        rw [getD_foldl_countKey keys _ c hlt, hseen hgoing.1, countBelow_succ, hzero, Nat.zero_add]
      rw [hcount]
      split
      · refine ⟨_, _, _, rfl, ?_, fun _ => rfl⟩
        rw [Nat.one_shiftLeft]
        exact countBelow_eq keys (by omega)
      · exact ⟨_, _, _, rfl, hbest, fun _ => rfl⟩
    case isFalse => exact ⟨_, _, _, rfl, hbest, by simp⟩

/-- The number of keys that go to the array part is the number of those that fit into it. -/
theorem bestSize_eq (keys : List Value) (total : Nat) :
    (bestSize (keys.foldl countKey (Array.replicate 28 0)) total).2 =
      keys.countP (fits (bestSize (keys.foldl countKey (Array.replicate 28 0)) total).1) := by
  obtain ⟨best, seen, going, hfold, hbest, -⟩ := considerSize_spec keys total (Nat.le_refl 28)
  rw [bestSize, hfold]
  exact hbest

/-! ## Setting any key -/

theorem map_fst_filterMap {α : Type} (l : List α) (skip : α → Bool) (key value : α → Value) :
    (l.filterMap fun a => if skip a then none else some (key a, value a)).map (·.1) =
      (l.filter fun a => !skip a).map key := by
  induction l with
  | nil => rfl
  | cons a rest ih => cases h : skip a <;> simp [h, ih]

/-- The keys of the entries that are set anew are in use. -/
theorem keys_entriesBehind (t : Table) (arraySize : Nat) :
    ((t.entriesBehind arraySize).map (·.1)).Sublist t.usedKeys := by
  have hrange : ((List.range (t.array.size - arraySize)).map (arraySize + ·)).Sublist
      (List.range t.array.size) := by
    by_cases hle : arraySize ≤ t.array.size
    · have hsplit := List.range_add (n := arraySize) (m := t.array.size - arraySize)
      rw [Nat.add_sub_cancel' hle] at hsplit
      rw [hsplit]
      exact List.sublist_append_right _ _
    · simp [show t.array.size - arraySize = 0 by omega]
  unfold entriesBehind usedKeys
  rw [List.map_append, map_fst_filterMap _ (fun n : Node => n.value.isNil)]
  refine List.Sublist.append_right ?_ _
  have hslots := map_fst_filterMap (List.range (t.array.size - arraySize))
    (fun i => (t.array.getD (arraySize + i) .nil).isNil)
    (fun i => Value.int (.ofNat (arraySize + i + 1))) fun i => t.array.getD (arraySize + i) .nil
  rw [hslots]
  have hmap := (hrange.filter fun i => !(t.array.getD i .nil).isNil).map fun i =>
    Value.int (.ofNat (i + 1))
  rw [List.filter_map, List.map_map] at hmap
  exact hmap

/-- The entries that are set anew take no more nodes than the keys in use. -/
theorem nodesForAll_entriesBehind_le (t : Table) (arraySize : Nat) :
    nodesForAll arraySize (t.entriesBehind arraySize) ≤
      t.usedKeys.countP fun key => !fits arraySize key := by
  have hcount : nodesForAll arraySize (t.entriesBehind arraySize) =
      ((t.entriesBehind arraySize).map (·.1)).countP fun key => !fits arraySize key := by
    rw [List.countP_map]
    rfl
  rw [hcount]
  exact (t.keys_entriesBehind arraySize).countP_le

/-- A table that grows for a key gives the same for all others and has room for this one. -/
theorem Sound.grow (h : t.Sound) (key : Value) :
    ∃ arraySize, (t.grow key).Room (nodesFor arraySize key) ∧ (t.grow key).array.size = arraySize ∧
      ∀ other, other.IsKey → t.Indexed other → (t.grow key).getKey other = t.getKey other := by
  obtain ⟨⟨arraySize, inArray⟩, hbest⟩ : ∃ best, bestSize ((key :: t.usedKeys).foldl countKey
      (Array.replicate 28 0)) (((key :: t.usedKeys).foldl countKey (Array.replicate 28 0)).foldl
        (· + ·) 0) = best := ⟨_, rfl⟩
  have hcount := bestSize_eq (key :: t.usedKeys) (((key :: t.usedKeys).foldl countKey
    (Array.replicate 28 0)).foldl (· + ·) 0)
  rw [hbest] at hcount
  dsimp only at hcount
  have hgrow : t.grow key = t.resize arraySize ((key :: t.usedKeys).length - inArray) := by
    rw [Table.grow, hbest]
  have hlength := List.length_eq_countP_add_countP (fits arraySize) (l := key :: t.usedKeys)
  have hroom : nodesForAll arraySize (t.entriesBehind arraySize) + nodesFor arraySize key ≤
      (key :: t.usedKeys).length - inArray := by
    have hle := t.nodesForAll_entriesBehind_le arraySize
    have hkey : (key :: t.usedKeys).countP (fun key => !fits arraySize key) =
        t.usedKeys.countP (fun key => !fits arraySize key) + nodesFor arraySize key := by
      rw [List.countP_cons, nodesFor]
      cases fits arraySize key <;> rfl
    simp only [Bool.not_eq_true, Bool.decide_eq_false] at hlength
    rw [hkey] at hlength
    omega
  exact ⟨arraySize, hgrow ▸ h.resize hroom⟩

/-- A table remains sound whatever key is set. -/
theorem Sound.setKey (h : t.Sound) (hkey : key.IsKey) (value : Value) :
    (t.setKey key value).Sound := by
  unfold Table.setKey
  split
  case h_1 hset => exact (h.setExisting hkey hset).sound
  case h_2 habsent =>
    split
    case isTrue => exact h
    case isFalse hvalue =>
      split
      case h_1 hplace => exact (h.placeKey hkey habsent hplace).sound
      case h_2 =>
        obtain ⟨arraySize, hroom, -⟩ := h.grow key
        exact hroom.sound.setWithRoom hkey value

/-- What a table gives for a key is what has been set last for it. -/
theorem Sound.getKey_setKey (h : t.Sound) (hkey : key.IsKey) (value : Value) (hother : other.IsKey)
    (hindexed : t.Indexed other) :
    (t.setKey key value).getKey other = if other = key then value else t.getKey other := by
  unfold Table.setKey
  split
  case h_1 hset => exact (h.setExisting hkey hset).getKey other hother
  case h_2 habsent =>
    split
    case isTrue hnil =>
      rw [Value.isNil_iff.mp hnil]
      exact (h.isSet_nil hkey habsent).getKey other hother
    case isFalse hvalue =>
      split
      case h_1 hplace => exact (h.placeKey hkey habsent hplace).getKey other hother
      case h_2 =>
        obtain ⟨arraySize, hroom, hsize, hget⟩ := h.grow key
        have hisSet := ((hsize ▸ hroom : (t.grow key).Room (nodesFor (t.grow key).array.size key + 0))
          |>.setWithRoom hkey (mt Value.isNil_iff.mpr hvalue)).1
        rw [hisSet.getKey other hother, hget other hother hindexed]

theorem sound_empty : Sound {} := (room_of_fresh (t := {}) (by simp) rfl).sound

theorem sound_withSizes (arraySize nodeCount : Nat) : (withSizes arraySize nodeCount).Sound := by
  have hkept : withSizes arraySize nodeCount = ({} : Table).kept arraySize nodeCount := by
    simp [withSizes, kept]
  rw [hkept]
  exact (room_kept _ (Nat.zero_le _)).sound

/-- A table with more slots remains sound. -/
theorem Sound.reserve (h : t.Sound) (arraySize : Nat) : (t.reserve arraySize).Sound := by
  unfold Table.reserve
  split
  case isTrue => exact h
  case isFalse => exact h.sound_resize _ _

/-- The limit and the metatable do not matter. -/
theorem Sound.congr (h : t.Sound) (harray : t'.array = t.array) (hnodes : t'.nodes = t.nodes)
    (hfree : t'.free = t.free) : t'.Sound := by
  refine ⟨by rw [hnodes]; exact h.chained, by rw [hnodes, hfree]; exact h.free_le, fun i n hi => ?_⟩
  rw [hnodes] at hi
  exact (slotOf?_congr (congrArg Array.size harray) (.int n)).trans (h.apart i n hi)

theorem Sound.touch (h : t.Sound) (key : Value) : (t.touch key).Sound := by
  unfold Table.touch
  split
  · exact h
  · split
    · split
      · split
        · exact h.congr rfl rfl rfl
        · exact h
      · exact h
    · exact h

theorem Sound.setText (h : t.Sound) (key : String) (v : Value) : (t.setText key v).Sound :=
  h.setKey (Value.isKey_ofString key) v

/-- What a table gives for a text is what has been set last for it. -/
theorem Sound.getText_setText (h : t.Sound) (key other : String) (v : Value) :
    (t.setText key v).getText other = if other = key then v else t.getText other := by
  have hsame : Value.ofString other = .ofString key ↔ other = key := by
    simp [Value.ofString, String.toByteArray_inj]
  have hget := h.getKey_setKey (Value.isKey_ofString key) v (Value.isKey_ofString other)
    (.inl fun n => by simp [Value.ofString])
  simp only [hsame] at hget
  exact hget

end Sandbox.Script.Table
