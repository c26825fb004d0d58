import Sandbox.Proofs.Script.Entries
import Mathlib.Data.Fintype.Pigeonhole
import Mathlib.Logic.Relation

/-!
# Chains of nodes

Each key of a table stands in the chain that begins at the main position of the key. `Chained` says so of
some nodes, together with what it takes for a new key to find its place without breaking a chain: no two
nodes hold the same key or have the same next node, and a node that is the main position of any key holds
a key whose main position it is. Since the chains are no longer than there are nodes, the search for a key
finds exactly the node that holds it.
-/

namespace Sandbox.Script

namespace Value

/-- A value that can be a key, in the form in which tables keep keys. -/
def IsKey : Value → Prop
  | .nil => False
  | .float x => x.isNaN = false ∧ x.toInt64? = none
  | _ => True

theorem IsKey.ne_nil {key : Value} (h : key.IsKey) : key ≠ .nil := by
  rintro rfl
  exact h

/-- A zero is an integer. -/
theorem toInt64?_ne_none_of_isZero {x : Binary64} (h : x.isZero = true) : x.toInt64? ≠ none := by
  simp only [Binary64.isZero, Bool.and_eq_true, beq_iff_eq] at h
  have hsignificand : x.significand = 0 := by simp [Binary64.significand, h.1, h.2]
  obtain ⟨den, hmagnitude⟩ : ∃ den, x.magnitude = (0, den) := by
    unfold Binary64.magnitude
    cases x.exponent <;> simp [hsignificand]
  have hint : x.toInt? = some 0 := by
    simp [Binary64.toInt?, Binary64.isFinite, hmagnitude, h.1]
  rw [Binary64.toInt64?, hint]
  exact Option.some_ne_none (Int64.ofInt 0)

theorem IsKey.sameKey_iff {a b : Value} (ha : a.IsKey) (hb : b.IsKey) :
    a.sameKey b = true ↔ a = b := by
  cases a with
  | float x =>
    cases b with
    | float y =>
      have hzero : x.isZero = false := by
        by_contra hne
        exact toInt64?_ne_none_of_isZero (by simpa using hne) ha.2
      simp only [sameKey, Binary64.eqv, ha.1, hb.1, hzero]
      cases x; cases y
      simp
    | _ => simp [sameKey]
  | _ => cases b <;> simp [sameKey]

theorem isKey_ofString (s : String) : (ofString s).IsKey := trivial

end Value

namespace Table

/-! ## Following a chain -/

section Chains

variable {node : Nat → Node} {size : Nat} {i j k n : Nat}

/-- The chain goes from a node to the next one. -/
def Step (node : Nat → Node) (i j : Nat) : Prop := (node i).next = some j

/-- The chain that begins at a node comes to another one, or it is the same. -/
abbrev Leads (node : Nat → Node) : Nat → Nat → Prop := Relation.ReflTransGen (Step node)

/-- Where the chain from a node is after some steps. -/
def follow (node : Nat → Node) : Nat → Nat → Option Nat
  | 0, i => some i
  | n + 1, i => (node i).next.bind (follow node n)

theorem follow_add (m n i : Nat) :
    follow node (m + n) i = (follow node m i).bind (follow node n) := by
  induction m generalizing i with
  | zero => simp [follow]
  | succ m ih =>
    rw [Nat.add_right_comm, follow, follow, Option.bind_assoc]
    congr 1
    exact funext ih

theorem exists_follow (h : Leads node i k) : ∃ n, follow node n i = some k := by
  induction h using Relation.ReflTransGen.head_induction_on with
  | refl => exact ⟨0, rfl⟩
  | head hstep _ ih =>
    obtain ⟨n, hn⟩ := ih
    refine ⟨n + 1, ?_⟩
    rw [follow, hstep]
    exact hn

theorem lt_of_follow (hsize : ∀ i j, Step node i j → j < size) (hi : i < size)
    (h : follow node n i = some k) : k < size := by
  induction n generalizing i with
  | zero => exact Option.some.inj h ▸ hi
  | succ n ih =>
    obtain ⟨j, hnext, hrest⟩ := Option.bind_eq_some_iff.mp h
    exact ih (hsize i j hnext) hrest

/-- A chain that stays among `size` nodes gets to each of them in less than `size` steps. -/
theorem exists_follow_lt (hsize : ∀ i j, Step node i j → j < size) (hi : i < size)
    (h : Leads node i k) : ∃ n < size, follow node n i = some k := by
  classical
  have hex := exists_follow h
  refine ⟨Nat.find hex, ?_, Nat.find_spec hex⟩
  by_contra hlong
  -- on the way there are more places than nodes, and one that comes twice makes a shorter way
  have hplace (t : Fin (size + 1)) : ∃ p : Fin size, follow node t i = some p.val := by
    have hsplit : follow node (t.val + (Nat.find hex - t.val)) i = _ := follow_add _ _ i
    rw [Nat.add_sub_cancel' (by omega), Nat.find_spec hex] at hsplit
    cases hfollow : follow node t i with
    | none => simp [hfollow] at hsplit
    | some p => exact ⟨⟨p, lt_of_follow hsize hi hfollow⟩, rfl⟩
  choose place hplace using hplace
  obtain ⟨s, t, hne, hsame⟩ := Fintype.exists_ne_map_eq_of_card_lt place (by simp)
  wlog hlt : s < t generalizing s t
  · exact this t s hne.symm hsame.symm (by omega)
  have hshort : follow node (s.val + (Nat.find hex - t.val)) i = some k := by
    rw [follow_add, hplace s, hsame, ← hplace t, ← follow_add, Nat.add_sub_cancel' (by omega)]
    exact Nat.find_spec hex
  exact Nat.find_min hex (by omega) hshort

end Chains

/-! ## Sound chains -/

/-- Each key of some nodes can be found where its chain begins, and a new one can be added so that this
remains so. -/
structure Chained (size : Nat) (node : Nat → Node) : Prop where
  inside : ∀ i, (node i).key ≠ .nil → i < size
  isKey : ∀ i, (node i).key ≠ .nil → (node i).key.IsKey
  fresh : ∀ i, (node i).key = .nil → node i = {}
  key_inj : ∀ i j, (node i).key ≠ .nil → (node i).key = (node j).key → i = j
  next_used : ∀ i j, (node i).next = some j → (node j).key ≠ .nil
  next_inj : ∀ i j k, (node i).next = some k → (node j).next = some k → i = j
  /-- A node that is a main position holds a key that is at home. -/
  home : ∀ i, (node i).key ≠ .nil →
    mainPosition size (node (mainPosition size (node i).key)).key = mainPosition size (node i).key
  leads : ∀ i, (node i).key ≠ .nil → Leads node (mainPosition size (node i).key) i

namespace Chained

variable {node : Nat → Node} {size : Nat} {key value : Value} {f i : Nat}

/-- A node of which the chain goes on holds a key. -/
theorem used_of_next (h : Chained size node) {j : Nat} (hnext : (node i).next = some j) :
    (node i).key ≠ .nil := by
  intro hnil
  rw [h.fresh i hnil] at hnext
  cases hnext

/-- The main position of a key that is there is in use. -/
theorem home_used (h : Chained size node) (hi : (node i).key ≠ .nil) :
    (node (mainPosition size (node i).key)).key ≠ .nil := by
  rcases (h.leads i hi).cases_head with heq | ⟨j, hstep, -⟩
  · rwa [heq]
  · exact h.used_of_next hstep

/-- The chain to a node from elsewhere comes there from a node that is not the same. -/
theorem ne_of_step (h : Chained size node) {start before : Nat} (hlead : Leads node start i)
    (hne : start ≠ i) (hstep : Step node before i) : before ≠ i := by
  have hother : ∃ other, other ≠ i ∧ Step node other i := by
    induction hlead using Relation.ReflTransGen.head_induction_on with
    | refl => exact absurd rfl hne
    | @head start next hfirst _ ih =>
      by_cases hnext : next = i
      · exact ⟨start, hne, hnext ▸ hfirst⟩
      · exact ih hnext
  obtain ⟨other, hother, hstep'⟩ := hother
  exact h.next_inj before other i hstep hstep' ▸ hother

/-! ### Adding a key -/

/-- The nodes with a key at its main position. What was there is no longer there. -/
def fill (size : Nat) (node : Nat → Node) (key value : Value) (i : Nat) : Node :=
  if i = mainPosition size key then { node i with key, value } else node i

/-- The nodes with a key behind the one that is at its main position. -/
def extend (size : Nat) (node : Nat → Node) (key value : Value) (f i : Nat) : Node :=
  let home := mainPosition size key
  if i = home then { node home with next := some f }
  else if i = f then { key, value, next := (node home).next }
  else node i

/-- The nodes with a key at its main position, from where another one has moved to the node `f`. -/
def displace (size : Nat) (node : Nat → Node) (key value : Value) (f before i : Nat) : Node :=
  let home := mainPosition size key
  if i = home then { key, value }
  else if i = f then node home
  else if i = before then { node before with next := some f }
  else node i

/-! ### The nodes one by one -/

theorem extend_home (size : Nat) (node : Nat → Node) (key value : Value) (f : Nat) :
    extend size node key value f (mainPosition size key) =
      { node (mainPosition size key) with next := some f } := if_pos rfl

theorem extend_of_ne (node : Nat → Node) (key value : Value) (hi : i ≠ mainPosition size key)
    (hf : i ≠ f) : extend size node key value f i = node i := by
  simp [extend, hi, hf]

theorem displace_home (size : Nat) (node : Nat → Node) (key value : Value) (f before : Nat) :
    displace size node key value f before (mainPosition size key) = { key, value } := if_pos rfl

theorem displace_of_ne {before : Nat} (node : Nat → Node) (key value : Value)
    (hi : i ≠ mainPosition size key) (hf : i ≠ f) (hb : i ≠ before) :
    displace size node key value f before i = node i := by
  simp [displace, hi, hf, hb]

section Unused

variable (hthere : (node (mainPosition size key)).key ≠ .nil) (hunused : (node f).key = .nil)

include hthere hunused

/-- A node that is not in use is not the main position of a key that finds it taken. -/
theorem ne_home_of_unused : f ≠ mainPosition size key := by
  rintro rfl
  exact hthere hunused

theorem extend_free (value : Value) : extend size node key value f f =
    { key, value, next := (node (mainPosition size key)).next } := by
  simp [extend, ne_home_of_unused hthere hunused]

theorem displace_free (value : Value) (before : Nat) : displace size node key value f before f =
    node (mainPosition size key) := by
  simp [displace, ne_home_of_unused hthere hunused]

/-- Where the old chain goes from the main position to its next node, the new one takes the way through
the node `f`. -/
theorem extend_leads (h : Chained size node) (value : Value) {j : Nat} (hlead : Leads node i j) :
    Leads (extend size node key value f) i j := by
  refine hlead.lift' id fun i j hstep => ?_
  change Leads (extend size node key value f) i j
  by_cases hi : i = mainPosition size key
  · subst hi
    have hlink : Step (extend size node key value f) (mainPosition size key) f := by
      rw [Step, extend_home]
    exact .head hlink (.single (by rwa [Step, extend_free hthere hunused value]))
  · have hf : i ≠ f := by
      rintro rfl
      exact h.used_of_next hstep hunused
    exact .single (by rwa [Step, extend_of_ne node key value hi hf])

end Unused

/-- Where the key at a main position is away from its own, this is the main position of no key. -/
theorem main_ne_of_away (h : Chained size node)
    (haway : mainPosition size (node (mainPosition size key)).key ≠ mainPosition size key)
    (hi : (node i).key ≠ .nil) : mainPosition size (node i).key ≠ mainPosition size key := by
  intro hmain
  have hhome := h.home i hi
  rw [hmain] at hhome
  exact haway hhome

section Moved

variable {before : Nat} (h : Chained size node) (hunused : (node f).key = .nil)
  (hbeforeHome : before ≠ mainPosition size key) (hbefore : Step node before (mainPosition size key))

include h hunused hbeforeHome hbefore

theorem displace_before (value : Value) : displace size node key value f before before =
    { node before with next := some f } := by
  have hbeforeFree : before ≠ f := by
    rintro rfl
    exact h.used_of_next hbefore hunused
  simp [displace, hbeforeHome, hbeforeFree]

/-- A step of the old chain is one of the new chain, where the node `f` is in the place of the main
position. -/
theorem displace_step (hthere : (node (mainPosition size key)).key ≠ .nil) (value : Value) {j : Nat}
    (hstep : Step node i j) :
    Step (displace size node key value f before) (if i = mainPosition size key then f else i)
      (if j = mainPosition size key then f else j) := by
  by_cases hb : i = before
  · subst hb
    obtain rfl := Option.some.inj (hstep.symm.trans hbefore)
    rw [if_neg hbeforeHome, if_pos rfl, Step, h.displace_before hunused hbeforeHome hbefore value]
  · have hj : j ≠ mainPosition size key := by
      rintro rfl
      exact hb (h.next_inj i before _ hstep hbefore)
    rw [if_neg hj]
    by_cases hi : i = mainPosition size key
    · subst hi
      rwa [if_pos rfl, Step, displace_free hthere hunused value before]
    · have hf : i ≠ f := by
        rintro rfl
        exact h.used_of_next hstep hunused
      rwa [if_neg hi, Step, displace_of_ne node key value hi hf hb]

end Moved

/-- The chain of a key that was there leads to where the key is now. -/
theorem displace_leads {before : Nat} (h : Chained size node)
    (hthere : (node (mainPosition size key)).key ≠ .nil) (hunused : (node f).key = .nil)
    (haway : mainPosition size (node (mainPosition size key)).key ≠ mainPosition size key)
    (hbefore : Step node before (mainPosition size key)) (value : Value) (hi : (node i).key ≠ .nil) :
    Leads (displace size node key value f before) (mainPosition size (node i).key)
      (if i = mainPosition size key then f else i) := by
  have hbeforeHome := h.ne_of_step (h.leads _ hthere) haway hbefore
  have hlead : Leads (displace size node key value f before)
      (if mainPosition size (node i).key = mainPosition size key then f
        else mainPosition size (node i).key)
      (if i = mainPosition size key then f else i) :=
    (h.leads i hi).lift (fun i => if i = mainPosition size key then f else i)
      fun _ _ hstep => h.displace_step hunused hbeforeHome hbefore hthere value hstep
  rwa [if_neg (h.main_ne_of_away haway hi)] at hlead

/-! ### The chains -/

section Add

variable (h : Chained size node) (hkey : key.IsKey) (hnew : ∀ i, (node i).key ≠ key)

include h hkey hnew

theorem fill_chained (hsize : 0 < size) (value : Value) :
    Chained size (fill size node key value) := by
  have hstep : Step (fill size node key value) = Step node := by
    funext i j
    unfold Step fill
    split <;> rfl
  have hhome := mainPosition_lt hsize key
  have hnil := hkey.ne_nil
  have hcases (i : Nat) : i = mainPosition size key ∧ (fill size node key value i).key = key ∨
      i ≠ mainPosition size key ∧ fill size node key value i = node i := by
    unfold fill
    split
    · exact .inl ⟨‹_›, rfl⟩
    · exact .inr ⟨‹_›, rfl⟩
  refine ⟨fun i hi => ?_, fun i hi => ?_, fun i hi => ?_, fun i j hi heq => ?_, fun i j hi => ?_,
    fun i j k hi hj => ?_, fun i hi => ?_, fun i hi => ?_⟩
  · have := h.inside i
    grind
  · have := h.isKey i
    grind
  · have := h.fresh i
    grind
  · have := h.key_inj i j
    grind
  · have := h.next_used i j (hstep ▸ hi : Step node i j)
    grind
  · exact h.next_inj i j k (hstep ▸ hi : Step node i k) (hstep ▸ hj : Step node j k)
  · have := h.home i
    grind
  · rw [Leads, hstep]
    rcases hcases i with ⟨rfl, heq⟩ | ⟨-, heq⟩
    · rw [heq]
    · rw [heq] at hi ⊢
      exact h.leads i hi

variable (hthere : (node (mainPosition size key)).key ≠ .nil) (hlt : f < size)
  (hunused : (node f).key = .nil)

include hthere hlt hunused

theorem extend_chained (value : Value)
    (hhome : mainPosition size (node (mainPosition size key)).key = mainPosition size key) :
    Chained size (extend size node key value f) := by
  have hatHome := extend_home size node key value f
  have hatFree := extend_free hthere hunused value
  have hother (i : Nat) (hi : i ≠ mainPosition size key) (hf : i ≠ f) :=
    extend_of_ne node key value hi hf
  have hleads {i j : Nat} (hlead : Leads node i j) := h.extend_leads hthere hunused value hlead
  have hne := ne_home_of_unused hthere hunused
  have hfresh := h.fresh f hunused
  have hnil := hkey.ne_nil
  generalize heq : mainPosition size key = home at hthere hhome hatHome hatFree hother hne
  refine ⟨fun i hi => ?_, fun i hi => ?_, fun i hi => ?_, fun i j hi hsame => ?_, fun i j hi => ?_,
    fun i j k hi hj => ?_, fun i hi => ?_, fun i hi => ?_⟩
  · have := h.inside i
    grind
  · have := h.isKey i
    grind
  · have := h.fresh i
    grind
  · have := h.key_inj i j
    grind
  · have := h.next_used i j
    have := h.next_used home j
    grind
  · have := h.next_inj i j k
    have := h.next_inj home j k
    have := h.next_inj i home k
    have := h.next_used i f
    have := h.next_used j f
    have := h.next_used home f
    grind
  · have := h.home i
    have := h.home_used (i := i)
    grind
  · by_cases hhome' : i = home
    · subst hhome'
      rw [hatHome]
      exact hleads (h.leads i hthere)
    by_cases hf : i = f
    · subst hf
      rw [hatFree, heq]
      exact .single (by rw [Step, hatHome])
    · rw [hother i hhome' hf] at hi ⊢
      exact hleads (h.leads i hi)

theorem displace_chained {before : Nat} (value : Value)
    (haway : mainPosition size (node (mainPosition size key)).key ≠ mainPosition size key)
    (hbefore : Step node before (mainPosition size key)) :
    Chained size (displace size node key value f before) := by
  have hsize := mainPosition_lt (Nat.zero_lt_of_lt hlt) key
  have hbeforeHome : before ≠ mainPosition size key :=
    h.ne_of_step (h.leads _ hthere) haway hbefore
  have hatHome := displace_home size node key value f before
  have hatFree := displace_free hthere hunused value before
  have hatBefore := h.displace_before hunused hbeforeHome hbefore value
  have hother (i : Nat) (hi : i ≠ mainPosition size key) (hf : i ≠ f) (hb : i ≠ before) :=
    displace_of_ne node key value hi hf hb
  have hnotHome {i : Nat} (hi : (node i).key ≠ .nil) := h.main_ne_of_away haway hi
  have hleads {i : Nat} (hi : (node i).key ≠ .nil) :=
    h.displace_leads hthere hunused haway hbefore value hi
  have hne := ne_home_of_unused hthere hunused
  have hnil := hkey.ne_nil
  generalize heq : mainPosition size key = home at *
  refine ⟨fun i hi => ?_, fun i hi => ?_, fun i hi => ?_, fun i j hi hsame => ?_, fun i j hi => ?_,
    fun i j k hi hj => ?_, fun i hi => ?_, fun i hi => ?_⟩
  · have := h.inside i
    grind
  · have := h.isKey i
    have := h.isKey home
    grind
  · have := h.fresh i
    have := h.used_of_next hbefore
    grind
  · have := h.key_inj i j
    have := h.key_inj home j
    have := h.key_inj i home
    grind
  · have := h.next_used i j
    have := h.next_used home j
    grind
  · have := h.next_inj i j k
    have := h.next_inj home j k
    have := h.next_inj i home k
    have := h.next_used i f
    have := h.next_used j f
    have := h.next_used home f
    grind
  · have := h.home i
    have := h.home home
    have := h.home_used (i := i)
    have := h.home_used (i := home)
    have := hnotHome (i := i)
    have := hnotHome hthere
    grind
  · by_cases hi' : i = home
    · subst hi'
      rw [hatHome, heq]
    by_cases hf : i = f
    · subst hf
      rw [hatFree]
      simpa using hleads hthere
    · have hkey' : (displace size node key value f before i).key = (node i).key := by grind
      rw [hkey'] at hi ⊢
      simpa [hi'] using hleads hi

end Add

end Chained

end Table
end Sandbox.Script
