import Sandbox.Proofs.Script.Chain

/-!
# Looking up and setting

What a table gives for a key is what was last set for it, whatever else has been set in between. This
holds of sound tables: the chains of their nodes are in order, and no node holds an index that has a slot
of the array part. Every table is sound from the start and remains so.
-/

namespace Sandbox.Script.Table

variable {t t' : Table} {nodes : Array Node} {key other value v : Value} {i n : Nat}

/-- The node at a position. -/
def nodeOf (nodes : Array Node) (i : Nat) : Node := nodes.getD i {}

theorem lt_of_key_ne_nil (h : (nodeOf nodes i).key ≠ .nil) : i < nodes.size := by
  by_contra hle
  simp [nodeOf, hle] at h

/-! ## Chains of arrays of nodes -/

/-- The search in a chain finds the key where the chain leads to it. -/
theorem findInChain_eq {fuel start : Nat} (hinj : ∀ i j, (nodeOf nodes i).key ≠ .nil →
      (nodeOf nodes i).key = (nodeOf nodes j).key → i = j)
    (hsame : ∀ j, (nodeOf nodes j).key.sameKey key = true ↔ (nodeOf nodes j).key = key)
    (hkey : key ≠ .nil) (hi : (nodeOf nodes i).key = key)
    (hfollow : follow (nodeOf nodes) n start = some i) (hn : n < fuel) :
    findInChain nodes key fuel start = some i := by
  induction n generalizing fuel start with
  | zero =>
    obtain ⟨fuel, rfl⟩ := Nat.exists_eq_add_one_of_ne_zero (by omega : fuel ≠ 0)
    obtain rfl := Option.some.inj hfollow
    have hlt := lt_of_key_ne_nil (hi ▸ hkey)
    have hnode : nodes[start]? = some (nodeOf nodes start) := by simp [nodeOf, hlt]
    simp only [findInChain, hnode, if_pos ((hsame start).mpr hi)]
  | succ n ih =>
    obtain ⟨fuel, rfl⟩ := Nat.exists_eq_add_one_of_ne_zero (by omega : fuel ≠ 0)
    obtain ⟨next, hnext, hrest⟩ := Option.bind_eq_some_iff.mp hfollow
    have hlt : start < nodes.size := by
      by_contra hle
      simp [nodeOf, hle] at hnext
    have hnode : nodes[start]? = some (nodeOf nodes start) := by simp [nodeOf, hlt]
    by_cases hhere : (nodeOf nodes start).key = key
    · rw [hinj start i (hhere ▸ hkey) (hhere.trans hi.symm)] at hnode
      obtain rfl := hinj start i (hhere ▸ hkey) (hhere.trans hi.symm)
      simp only [findInChain, hnode, if_pos ((hsame start).mpr hi)]
    · simp only [findInChain, hnode, if_neg (mt (hsame start).mp hhere), hnext]
      exact ih hrest (by omega)

/-- The search for the node in front of another one finds it where the chain leads to that one. -/
theorem predecessor_step {fuel start target : Nat}
    (hfollow : follow (nodeOf nodes) (n + 1) start = some target) (hn : n < fuel) :
    Step (nodeOf nodes) (predecessor nodes target fuel start) target := by
  induction n generalizing fuel start with
  | zero =>
    obtain ⟨fuel, rfl⟩ := Nat.exists_eq_add_one_of_ne_zero (by omega : fuel ≠ 0)
    obtain ⟨next, hnext, hlast⟩ := Option.bind_eq_some_iff.mp hfollow
    obtain rfl := Option.some.inj hlast
    have hnext' : (nodes.getD start {}).next = some next := hnext
    simp only [predecessor, hnext', if_true]
    exact hnext
  | succ n ih =>
    obtain ⟨fuel, rfl⟩ := Nat.exists_eq_add_one_of_ne_zero (by omega : fuel ≠ 0)
    obtain ⟨next, hnext, hrest⟩ := Option.bind_eq_some_iff.mp hfollow
    have hnext' : (nodes.getD start {}).next = some next := hnext
    simp only [predecessor, hnext']
    split
    · rename_i heq
      exact heq ▸ hnext
    · exact ih hrest (by omega)

/-- A table in which each key can be found and no key is in two places. -/
structure Sound (t : Table) : Prop where
  chained : Chained t.nodes.size (nodeOf t.nodes)
  free_le : t.free ≤ t.nodes.size
  /-- An index that has a slot is in no node. -/
  apart : ∀ i n, (nodeOf t.nodes i).key = .int n → t.slot? n = none

/-- The search for a key finds exactly the node that holds it. -/
theorem Sound.findNode_eq_some_iff (h : t.Sound) (hkey : key.IsKey) :
    t.findNode key = some i ↔ (nodeOf t.nodes i).key = key := by
  have hsame (j : Nat) : (nodeOf t.nodes j).key.sameKey key = true ↔ (nodeOf t.nodes j).key = key := by
    by_cases hnil : (nodeOf t.nodes j).key = .nil
    · rw [hnil]
      cases key <;> simp_all [Value.sameKey, Value.IsKey]
    · exact (h.chained.isKey j hnil).sameKey_iff hkey
  constructor
  · intro hfind
    unfold findNode at hfind
    split at hfind
    · cases hfind
    · exact (hsame i).mp (sameKey_of_findInChain hfind).2
  · intro hi
    have hused : (nodeOf t.nodes i).key ≠ .nil := hi ▸ hkey.ne_nil
    have hlt := lt_of_key_ne_nil hused
    have hlead := h.chained.leads i hused
    rw [hi] at hlead
    have hbound : ∀ i j, Step (nodeOf t.nodes) i j → j < t.nodes.size := fun i j hstep =>
      h.chained.inside j (h.chained.next_used i j hstep)
    obtain ⟨n, hn, hfollow⟩ :=
      exists_follow_lt hbound (mainPosition_lt (Nat.zero_lt_of_lt hlt) key) hlead
    rw [findNode, if_neg (by simp; rintro heq; simp [heq] at hlt)]
    exact findInChain_eq h.chained.key_inj hsame hkey.ne_nil hi hfollow hn

/-! ## What nodes hold -/

/-- The nodes give a value for a key, which is nil if no node holds the key. -/
def Holds (node : Nat → Node) (key v : Value) : Prop :=
  (∃ i, (node i).key = key ∧ (node i).value = v) ∨ v = .nil ∧ ∀ i, (node i).key ≠ key

/-- The value that the nodes of a table give for a key. -/
def nodeValue (t : Table) (key : Value) : Value :=
  match t.findNode key with
  | some i => (nodeOf t.nodes i).value
  | none => .nil

theorem Sound.findNode_eq_none_iff (h : t.Sound) (hkey : key.IsKey) :
    t.findNode key = none ↔ ∀ i, (nodeOf t.nodes i).key ≠ key := by
  rw [Option.eq_none_iff_forall_ne_some]
  exact forall_congr' fun i => not_congr (h.findNode_eq_some_iff hkey)

theorem Sound.nodeValue_eq_of_holds (h : t.Sound) (hkey : key.IsKey)
    (hholds : Holds (nodeOf t.nodes) key v) : t.nodeValue key = v := by
  rcases hholds with ⟨i, hi, rfl⟩ | ⟨rfl, hnone⟩
  · simp only [nodeValue, (h.findNode_eq_some_iff hkey).mpr hi]
  · simp only [nodeValue, (h.findNode_eq_none_iff hkey).mpr hnone]

theorem Sound.holds_nodeValue (h : t.Sound) (hkey : key.IsKey) :
    Holds (nodeOf t.nodes) key (t.nodeValue key) := by
  cases hfind : t.findNode key with
  | some i => exact .inl ⟨i, (h.findNode_eq_some_iff hkey).mp hfind, by simp only [nodeValue, hfind]⟩
  | none =>
    exact .inr ⟨by simp only [nodeValue, hfind], (h.findNode_eq_none_iff hkey).mp hfind⟩

section Holds

variable {node : Nat → Node} {size f before : Nat} (hne : other ≠ key)

include hne

/-- A key that fills a node hides nothing but what has no value. -/
theorem Holds.fill (h : Chained size node) (hempty : (node (mainPosition size key)).value = .nil) (hother : other ≠ .nil)
    (hholds : Holds node other v) : Holds (Chained.fill size node key value) other v := by
  have hinj := h.key_inj
  unfold Holds Chained.fill at *
  grind

theorem Holds.extend (hunused : (node f).key = .nil) (hother : other ≠ .nil)
    (hholds : Holds node other v) : Holds (Chained.extend size node key value f) other v := by
  unfold Holds Chained.extend at *
  grind

theorem Holds.displace (hunused : (node f).key = .nil) (hother : other ≠ .nil)
    (hthere : (node (mainPosition size key)).key ≠ .nil)
    (hholds : Holds node other v) : Holds (Chained.displace size node key value f before) other v := by
  unfold Holds Chained.displace at *
  grind

end Holds

/-! ## Placing a new key -/

theorem nodeOf_setIfInBounds (nodes : Array Node) (node : Node) (hi : i < nodes.size) :
    nodeOf (nodes.setIfInBounds i node) = fun j => if j = i then node else nodeOf nodes j := by
  funext j
  rw [nodeOf, getD_setIfInBounds]
  grind [nodeOf]

theorem nodeOf_modify (nodes : Array Node) (change : Node → Node) (hi : i < nodes.size) :
    nodeOf (nodes.modify i change) =
      fun j => if j = i then change (nodeOf nodes i) else nodeOf nodes j := by
  funext j
  rw [nodeOf, getD_modify]
  grind [nodeOf]

/-- What becomes of the nodes where a new key is placed. -/
structure Placed (old : Array Node) (key value : Value) (nodes : Array Node) (free : Nat) : Prop where
  size_eq : nodes.size = old.size
  free_le : free ≤ old.size
  chained : Chained old.size (nodeOf nodes)
  keys : ∀ i, (nodeOf nodes i).key = key ∨ ∃ j, (nodeOf old j).key = (nodeOf nodes i).key
  holds : Holds (nodeOf nodes) key value
  holds_other : ∀ other v, other.IsKey → other ≠ key → Holds (nodeOf old) other v →
    Holds (nodeOf nodes) other v

section Placing

variable (h : t.Sound) (hkey : key.IsKey) (hnew : ∀ i, (nodeOf t.nodes i).key ≠ key)

include h

/-- The node in front of one that is not at home is found from where its chain begins. -/
theorem Sound.predecessor_step (hi : (nodeOf t.nodes i).key ≠ .nil)
    (haway : mainPosition t.nodes.size (nodeOf t.nodes i).key ≠ i) :
    Step (nodeOf t.nodes) (predecessor t.nodes i t.nodes.size
      (mainPosition t.nodes.size (nodeOf t.nodes i).key)) i := by
  have hsize : 0 < t.nodes.size := Nat.zero_lt_of_lt (lt_of_key_ne_nil hi)
  have hinside (j k : Nat) (hstep : Step (nodeOf t.nodes) j k) : k < t.nodes.size :=
    h.chained.inside k (h.chained.next_used j k hstep)
  obtain ⟨n, hn, hfollow⟩ := exists_follow_lt hinside (mainPosition_lt hsize _) (h.chained.leads i hi)
  cases n with
  | zero => exact absurd (Option.some.inj hfollow) haway
  | succ n => exact Table.predecessor_step hfollow (Nat.lt_of_succ_lt hn)

include hkey hnew

/-- A main position without a value takes the key. -/
theorem Sound.placed_fill (hsize : 0 < t.nodes.size)
    (hempty : (nodeOf t.nodes (mainPosition t.nodes.size key)).value = .nil) :
    Placed t.nodes key value (t.nodes.setIfInBounds (mainPosition t.nodes.size key)
      { nodeOf t.nodes (mainPosition t.nodes.size key) with key, value }) t.free := by
  have hnodes : nodeOf (t.nodes.setIfInBounds (mainPosition t.nodes.size key)
      { nodeOf t.nodes (mainPosition t.nodes.size key) with key, value }) =
      Chained.fill t.nodes.size (nodeOf t.nodes) key value := by
    rw [nodeOf_setIfInBounds _ _ (mainPosition_lt hsize key)]
    funext j
    grind [Chained.fill]
  constructor
  case size_eq => simp
  case free_le => exact h.free_le
  case chained => exact hnodes ▸ h.chained.fill_chained hkey hnew hsize value
  case keys =>
    rw [hnodes]
    grind [Chained.fill]
  case holds => exact hnodes ▸ .inl ⟨mainPosition t.nodes.size key, by simp [Chained.fill]⟩
  case holds_other =>
    intro other v hother hne hholds
    exact hnodes ▸ hholds.fill hne h.chained hempty hother.ne_nil

variable (hthere : (nodeOf t.nodes (mainPosition t.nodes.size key)).key ≠ .nil)
  (hlt : i < t.nodes.size) (hunused : (nodeOf t.nodes i).key = .nil)

include hthere hlt hunused

/-- Where the main position is taken by a key that is at home, the new one goes behind it. -/
theorem Sound.placed_extend (hhome : mainPosition t.nodes.size
      (nodeOf t.nodes (mainPosition t.nodes.size key)).key = mainPosition t.nodes.size key) :
    Placed t.nodes key value ((t.nodes.setIfInBounds i
      { key, value, next := (nodeOf t.nodes (mainPosition t.nodes.size key)).next }).setIfInBounds
        (mainPosition t.nodes.size key)
        { nodeOf t.nodes (mainPosition t.nodes.size key) with next := some i }) i := by
  have hmain := mainPosition_lt (Nat.zero_lt_of_lt hlt) key
  have hne := Chained.ne_home_of_unused hthere hunused
  have hnodes : nodeOf ((t.nodes.setIfInBounds i
      { key, value, next := (nodeOf t.nodes (mainPosition t.nodes.size key)).next }).setIfInBounds
        (mainPosition t.nodes.size key)
        { nodeOf t.nodes (mainPosition t.nodes.size key) with next := some i }) =
      Chained.extend t.nodes.size (nodeOf t.nodes) key value i := by
    rw [nodeOf_setIfInBounds _ _ (by simpa using hmain), nodeOf_setIfInBounds _ _ hlt]
    funext j
    grind [Chained.extend]
  constructor
  case size_eq => simp
  case free_le => exact Nat.le_of_lt hlt
  case chained => exact hnodes ▸ h.chained.extend_chained hkey hnew hthere hlt hunused value hhome
  case keys =>
    rw [hnodes]
    grind [Chained.extend]
  case holds => exact hnodes ▸ .inl ⟨i, by simp [Chained.extend, hne]⟩
  case holds_other =>
    intro other v hother hne' hholds
    exact hnodes ▸ hholds.extend hne' hunused hother.ne_nil

/-- Where the main position is taken by a key that is away from home, this one moves. -/
theorem Sound.placed_displace {before : Nat} (haway : mainPosition t.nodes.size
      (nodeOf t.nodes (mainPosition t.nodes.size key)).key ≠ mainPosition t.nodes.size key)
    (hbefore : Step (nodeOf t.nodes) before (mainPosition t.nodes.size key)) :
    Placed t.nodes key value (((t.nodes.modify before fun n => { n with next := some i }).setIfInBounds
      i (nodeOf t.nodes (mainPosition t.nodes.size key))).setIfInBounds
        (mainPosition t.nodes.size key) { key, value }) i := by
  have hmain := mainPosition_lt (Nat.zero_lt_of_lt hlt) key
  have hbeforeLt : before < t.nodes.size := h.chained.inside _ (h.chained.used_of_next hbefore)
  have hnodes : nodeOf (((t.nodes.modify before fun n => { n with next := some i }).setIfInBounds
      i (nodeOf t.nodes (mainPosition t.nodes.size key))).setIfInBounds
        (mainPosition t.nodes.size key) { key, value }) =
      Chained.displace t.nodes.size (nodeOf t.nodes) key value i before := by
    rw [nodeOf_setIfInBounds _ _ (by simpa using hmain), nodeOf_setIfInBounds _ _ (by simpa using hlt),
      nodeOf_modify _ _ hbeforeLt]
    funext j
    grind [Chained.displace]
  constructor
  case size_eq => simp
  case free_le => exact Nat.le_of_lt hlt
  case chained =>
    exact hnodes ▸ h.chained.displace_chained hkey hnew hthere hlt hunused value haway hbefore
  case keys =>
    rw [hnodes]
    grind [Chained.displace]
  case holds => exact hnodes ▸ .inl ⟨mainPosition t.nodes.size key, by simp [Chained.displace]⟩
  case holds_other =>
    intro other v hother hne hholds
    exact hnodes ▸ hholds.displace hne hunused hother.ne_nil hthere

end Placing

/-- A new key is placed at its main position or in the chain from there. -/
theorem Sound.placed (h : t.Sound) (hkey : key.IsKey) (hnew : ∀ i, (nodeOf t.nodes i).key ≠ key)
    (hplace : t.placeKey key value = some t') :
    ∃ nodes free, t' = { t with nodes, free } ∧ Placed t.nodes key value nodes free := by
  have hsize : 0 < t.nodes.size := by
    by_contra hzero
    have hfree := h.free_le
    simp [placeKey, show t.nodes.size = 0 by omega, show t.free = 0 by omega, freeNode] at hplace
  have hget : t.nodes.getD (mainPosition t.nodes.size key) {} =
      nodeOf t.nodes (mainPosition t.nodes.size key) := rfl
  simp only [placeKey, Array.set!_eq_setIfInBounds, hget] at hplace
  split at hplace
  case isTrue hempty =>
    simp only [Bool.and_eq_true, Value.isNil_iff] at hempty
    obtain rfl := Option.some.inj hplace
    exact ⟨_, t.free, rfl, h.placed_fill hkey hnew hsize hempty.2⟩
  case isFalse hempty =>
    split at hplace
    case h_1 => cases hplace
    case h_2 f hf =>
      obtain ⟨hflt, hunused, -⟩ := freeNode_eq_some hf
      have hlt : f < t.nodes.size := Nat.lt_of_lt_of_le hflt h.free_le
      have hthere : (nodeOf t.nodes (mainPosition t.nodes.size key)).key ≠ .nil := by
        intro hnil
        refine hempty ?_
        simp [h.chained.fresh _ hnil, Value.isNil, Nat.ne_of_gt hsize]
      split at hplace
      case isTrue haway =>
        obtain rfl := Option.some.inj hplace
        exact ⟨_, f, rfl, h.placed_displace hkey hnew hthere hlt hunused haway
          (h.predecessor_step hthere haway)⟩
      case isFalse hhome =>
        obtain rfl := Option.some.inj hplace
        exact ⟨_, f, rfl, h.placed_extend hkey hnew hthere hlt hunused (not_not.mp hhome)⟩

/-! ## Slots -/

/-- The slot of the array part for a key. -/
def slotOf? (t : Table) : Value → Option Nat
  | .int n => t.slot? n
  | _ => none

theorem slotOf?_eq_some_iff :
    t.slotOf? key = some i ↔ ∃ n, key = .int n ∧ n.toInt = i + 1 ∧ i < t.array.size := by
  cases key with
  | int n =>
    simp only [slotOf?, slot?, Bool.and_eq_true, decide_eq_true_eq, Option.ite_none_right_eq_some,
      Option.some.injEq, Value.int.injEq, exists_eq_left']
    omega
  | _ => simp [slotOf?]

/-- Two keys do not share a slot. -/
theorem slotOf?_inj (hkey : t.slotOf? key = some i) (hother : t.slotOf? other = some i) :
    other = key := by
  obtain ⟨n, rfl, hn, -⟩ := slotOf?_eq_some_iff.mp hkey
  obtain ⟨m, rfl, hm, -⟩ := slotOf?_eq_some_iff.mp hother
  rw [Int64.toInt_inj.mp (hm.trans hn.symm)]

theorem slotOf?_congr (h : t'.array.size = t.array.size) (key : Value) :
    t'.slotOf? key = t.slotOf? key := by
  cases key with
  | int n => simp only [slotOf?, slot?, h]
  | _ => rfl

/-- The value of a key is in its slot if it has one, and otherwise in the nodes. -/
theorem getKey_eq (hkey : key ≠ .nil) :
    t.getKey key = match t.slotOf? key with
      | some i => t.array.getD i .nil
      | none => t.nodeValue key := by
  cases key with
  | nil => exact absurd rfl hkey
  | _ => rfl

theorem setExisting_eq : t.setExisting key value = match t.slotOf? key with
    | some i => some { t with array := t.array.setIfInBounds i value }
    | none => (t.findNode key).map fun i =>
        { t with nodes := t.nodes.modify i fun n => { n with value } } := by
  cases key <;> rfl

/-- A key that is nowhere has no value. -/
theorem getKey_eq_nil (hkey : key ≠ .nil) (h : t.setExisting key value = none) :
    t.getKey key = .nil := by
  rw [setExisting_eq] at h
  rw [getKey_eq hkey]
  split at h
  case h_1 => cases h
  case h_2 => simp only [nodeValue, Option.map_eq_none_iff.mp h]

/-! ## Setting -/

/-- One table is as another one but for a key, which has this value. -/
structure IsSet (t : Table) (key value : Value) (t' : Table) : Prop where
  sound : t'.Sound
  getKey : ∀ other, other.IsKey → t'.getKey other = if other = key then value else t.getKey other

/-- A change of the value in a node that is in use leaves the chains. -/
theorem Chained.revalue {node : Nat → Node} {size : Nat} (h : Chained size node)
    (hi : (node i).key ≠ .nil) (value : Value) :
    Chained size fun j => if j = i then { node i with value } else node j := by
  have hkeys (j : Nat) : (if j = i then { node i with value } else node j).key = (node j).key := by
    grind
  have hnext (j : Nat) : (if j = i then { node i with value } else node j).next = (node j).next := by
    grind
  have hstep : Step (fun j => if j = i then { node i with value } else node j) = Step node := by
    funext j k
    exact congrArg (· = some k) (hnext j)
  constructor <;> simp only [hkeys, hnext, hstep, Leads]
  · exact h.inside
  · exact h.isKey
  · have := h.fresh
    grind
  · exact h.key_inj
  · exact h.next_used
  · exact h.next_inj
  · exact h.home
  · exact h.leads

/-- What is set in the nodes only is all that changes. -/
theorem Sound.isSet_of_nodes (h : t.Sound) {nodes : Array Node} {free : Nat}
    (hsound : Sound { t with nodes, free }) (hkey : key.IsKey) (hslot : t.slotOf? key = none)
    (hholds : Holds (nodeOf nodes) key value)
    (hother : ∀ other v, other.IsKey → other ≠ key → Holds (nodeOf t.nodes) other v →
      Holds (nodeOf nodes) other v) : t.IsSet key value { t with nodes, free } := by
  refine ⟨hsound, fun other hother' => ?_⟩
  have hslots : slotOf? { t with nodes, free } other = t.slotOf? other := slotOf?_congr rfl other
  rw [getKey_eq hother'.ne_nil, getKey_eq hother'.ne_nil, hslots]
  by_cases heq : other = key
  · subst heq
    simp only [hslot, if_true]
    exact hsound.nodeValue_eq_of_holds hkey hholds
  · rw [if_neg heq]
    cases t.slotOf? other with
    | some i => rfl
    | none =>
      exact hsound.nodeValue_eq_of_holds hother'
        (hother other _ hother' heq (h.holds_nodeValue hother'))

/-- A new value in a slot is that of its key. -/
theorem Sound.setSlot (h : t.Sound) (hslot : t.slotOf? key = some i) (value : Value) :
    t.IsSet key value { t with array := t.array.setIfInBounds i value } := by
  have hslots (other : Value) : slotOf? { t with array := t.array.setIfInBounds i value } other =
      t.slotOf? other := slotOf?_congr Array.size_setIfInBounds other
  refine ⟨⟨h.chained, h.free_le, fun j n hj => (hslots (.int n)).trans (h.apart j n hj)⟩,
    fun other hother => ?_⟩
  rw [getKey_eq hother.ne_nil, getKey_eq hother.ne_nil, hslots]
  by_cases heq : other = key
  · subst heq
    obtain ⟨-, -, -, hlt⟩ := slotOf?_eq_some_iff.mp hslot
    simp only [hslot, getD_setIfInBounds, hlt, and_self, if_true]
  · rw [if_neg heq]
    cases hother' : t.slotOf? other with
    | some j =>
      have hne : i ≠ j := by
        rintro rfl
        exact heq (slotOf?_inj hslot hother')
      simp only [getD_setIfInBounds, hne, false_and, if_false]
    | none => rfl

/-- A new value in the node of a key is that of the key. -/
theorem Sound.setNode (h : t.Sound) (hkey : key.IsKey) (hslot : t.slotOf? key = none)
    (hi : (nodeOf t.nodes i).key = key) (value : Value) :
    t.IsSet key value { t with nodes := t.nodes.modify i fun n => { n with value } } := by
  have hused : (nodeOf t.nodes i).key ≠ .nil := hi ▸ hkey.ne_nil
  have hnodes := nodeOf_modify t.nodes (fun n => { n with value }) (lt_of_key_ne_nil hused)
  have hkeys (j : Nat) : (nodeOf (t.nodes.modify i fun n => { n with value }) j).key =
      (nodeOf t.nodes j).key := by
    rw [hnodes]
    grind
  have hsound : Sound { t with nodes := t.nodes.modify i fun n => { n with value } } := by
    refine ⟨?_, by simpa using h.free_le, fun j n hj => h.apart j n ((hkeys j).symm.trans hj)⟩
    rw [hnodes, Array.size_modify]
    exact h.chained.revalue hused value
  refine h.isSet_of_nodes hsound hkey hslot ?_ fun other v hother hne hholds => ?_
  · exact .inl ⟨i, (hkeys i).trans hi, by simp [hnodes]⟩
  · simp only [Holds, hkeys] at hholds ⊢
    rcases hholds with ⟨j, hj, hvalue⟩ | hnone
    · have hji : j ≠ i := by
        rintro rfl
        exact hne (hj.symm.trans hi)
      exact .inl ⟨j, hj, by simpa [hnodes, hji] using hvalue⟩
    · exact .inr hnone

theorem Sound.setExisting (h : t.Sound) (hkey : key.IsKey)
    (hset : t.setExisting key value = some t') : t.IsSet key value t' := by
  rw [setExisting_eq] at hset
  split at hset
  case h_1 hslot =>
    obtain rfl := Option.some.inj hset
    exact h.setSlot hslot value
  case h_2 hslot =>
    obtain ⟨i, hfind, rfl⟩ := Option.map_eq_some_iff.mp hset
    exact h.setNode hkey hslot ((h.findNode_eq_some_iff hkey).mp hfind) value

theorem Sound.placeKey (h : t.Sound) (hkey : key.IsKey) (habsent : t.setExisting key value = none)
    (hplace : t.placeKey key value = some t') : t.IsSet key value t' := by
  rw [setExisting_eq] at habsent
  split at habsent
  case h_1 => cases habsent
  case h_2 hslot =>
    have hnew := (h.findNode_eq_none_iff hkey).mp (Option.map_eq_none_iff.mp habsent)
    obtain ⟨nodes, free, rfl, hplaced⟩ := h.placed hkey hnew hplace
    have hsound : Sound { t with nodes, free } := by
      refine ⟨hplaced.size_eq ▸ hplaced.chained, hplaced.size_eq ▸ hplaced.free_le, fun i n hi => ?_⟩
      rcases hplaced.keys i with heq | ⟨j, hj⟩
      · rw [hi] at heq
        subst heq
        exact hslot
      · exact h.apart j n (hj.trans hi)
    exact h.isSet_of_nodes hsound hkey hslot hplaced.holds hplaced.holds_other

/-- Where a new key has found no room, nothing changes. -/
theorem Sound.setWithRoom (h : t.Sound) (hkey : key.IsKey) (value : Value) :
    (t.setWithRoom key value).Sound := by
  unfold Table.setWithRoom
  split
  case h_1 hset => exact (h.setExisting hkey hset).sound
  case h_2 habsent =>
    split
    · exact h
    · cases hplace : t.placeKey key value with
      | none => exact h
      | some t' => exact (h.placeKey hkey habsent hplace).sound

/-- A key that is nowhere is as good as set to nil. -/
theorem Sound.isSet_nil (h : t.Sound) (hkey : key.IsKey) (habsent : t.setExisting key value = none) :
    t.IsSet key .nil t := by
  refine ⟨h, fun other _ => ?_⟩
  split
  case isTrue heq => rw [heq, getKey_eq_nil hkey.ne_nil habsent]
  case isFalse => rfl

end Sandbox.Script.Table
