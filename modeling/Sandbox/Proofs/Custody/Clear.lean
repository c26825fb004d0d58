import Sandbox.Script.Host

/-!
# What does not give the loader away

`Custody` names the function that compiles in any mode, the variable that holds it and the function that
sees the variable. Something is `Clear` if that first function does not occur in it. Values made of clear
ones are clear, and so is all that is read from a clear table.
-/

namespace Sandbox.Script

/-- Who holds the function that compiles in any mode. -/
structure Custody where
  /-- The function itself. -/
  loader : Nat
  /-- The variable that it is the value of. -/
  cell : Nat
  /-- The function that sees the variable. -/
  door : Nat
  deriving DecidableEq

/-- The kinds of things that may hold functions. -/
class Carries (α : Type) where
  /-- The loader does not occur in it. -/
  clear : Custody → α → Prop

/-- The loader does not occur in it. -/
def Clear {α : Type} [Carries α] (c : Custody) (a : α) : Prop := Carries.clear c a

/-- The kinds of things that hold no functions. -/
class Inert (α : Type) [Carries α] : Prop where
  clear (c : Custody) (a : α) : Clear c a

section Kinds

variable {α β : Type}

/-- What is not said to hold functions holds none. -/
instance (priority := low) carriesNothing : Carries α := ⟨fun _ _ => True⟩

instance (priority := low) : @Inert α carriesNothing :=
  @Inert.mk α carriesNothing fun _ _ => trivial

instance : Carries Value := ⟨fun c v => v ≠ .function c.loader⟩

variable [Carries α] [Carries β]

instance : Carries (List α) := ⟨fun c l => ∀ a ∈ l, Clear c a⟩

instance [Inert α] : Inert (List α) := ⟨fun c _ a _ => Inert.clear c a⟩

instance : Carries (Option α) := ⟨fun c o => ∀ a, o = some a → Clear c a⟩

instance [Inert α] : Inert (Option α) := ⟨fun c _ a _ => Inert.clear c a⟩

instance : Carries (α × β) := ⟨fun c p => Clear c p.1 ∧ Clear c p.2⟩

instance [Inert α] [Inert β] : Inert (α × β) := ⟨fun c _ => ⟨Inert.clear c _, Inert.clear c _⟩⟩

instance : Carries (α ⊕ β) := ⟨fun c s => (∀ a, s = .inl a → Clear c a) ∧ ∀ b, s = .inr b → Clear c b⟩

instance [Inert α] [Inert β] : Inert (α ⊕ β) :=
  ⟨fun c _ => ⟨fun _ _ => Inert.clear c _, fun _ _ => Inert.clear c _⟩⟩

instance : Carries (Except α β) :=
  ⟨fun c r => (∀ a, r = .error a → Clear c a) ∧ ∀ b, r = .ok b → Clear c b⟩

instance [Inert α] [Inert β] : Inert (Except α β) :=
  ⟨fun c _ => ⟨fun _ _ => Inert.clear c _, fun _ _ => Inert.clear c _⟩⟩

instance : Carries (Array α) := ⟨fun c xs => ∀ a ∈ xs, Clear c a⟩

instance [Inert α] : Inert (Array α) := ⟨fun c _ a _ => Inert.clear c a⟩

instance : Carries Node := ⟨fun c n => Clear c n.key ∧ Clear c n.value⟩

instance : Carries Table := ⟨fun c t => Clear c t.array ∧ Clear c t.nodes⟩

end Kinds

variable {c : Custody}

section Kinds

variable {α β : Type} [Carries α] [Carries β]

@[grind .] theorem clear_of_inert [Inert α] (a : α) : Clear c a := Inert.clear c a

@[simp, grind =] theorem clear_value {v : Value} : Clear c v ↔ v ≠ .function c.loader := .rfl

@[simp, grind .] theorem clear_nil : Clear c ([] : List α) := fun _ h => by cases h

@[simp, grind =] theorem clear_cons {a : α} {l : List α} : Clear c (a :: l) ↔ Clear c a ∧ Clear c l :=
  List.forall_mem_cons

@[simp, grind =] theorem clear_append {l l' : List α} : Clear c (l ++ l') ↔ Clear c l ∧ Clear c l' :=
  List.forall_mem_append

@[simp, grind .] theorem clear_none : Clear c (none : Option α) := fun _ h => by cases h

@[simp, grind =] theorem clear_some {a : α} : Clear c (some a) ↔ Clear c a :=
  ⟨fun h => h a rfl, fun h _ heq => Option.some.inj heq ▸ h⟩

@[simp, grind =] theorem clear_pair {a : α} {b : β} : Clear c (a, b) ↔ Clear c a ∧ Clear c b := .rfl

@[simp, grind =] theorem clear_inl {a : α} : Clear c (.inl a : α ⊕ β) ↔ Clear c a :=
  ⟨fun h => h.1 a rfl, fun h => ⟨fun _ heq => Sum.inl.inj heq ▸ h, fun _ heq => by cases heq⟩⟩

@[simp, grind =] theorem clear_inr {b : β} : Clear c (.inr b : α ⊕ β) ↔ Clear c b :=
  ⟨fun h => h.2 b rfl, fun h => ⟨fun _ heq => (by cases heq), fun _ heq => Sum.inr.inj heq ▸ h⟩⟩

@[simp, grind =] theorem clear_ok {b : β} : Clear c (.ok b : Except α β) ↔ Clear c b :=
  ⟨fun h => h.2 b rfl, fun h => ⟨fun _ heq => (by cases heq), fun _ heq => Except.ok.inj heq ▸ h⟩⟩

@[simp, grind =] theorem clear_error {a : α} : Clear c (.error a : Except α β) ↔ Clear c a :=
  ⟨fun h => h.1 a rfl, fun h => ⟨fun _ heq => Except.error.inj heq ▸ h, fun _ heq => by cases heq⟩⟩

end Kinds

section Decidable

variable {α : Type} [Carries α] [∀ a : α, Decidable (Clear c a)]

instance (v : Value) : Decidable (Clear c v) := inferInstanceAs (Decidable (v ≠ _))

instance (xs : Array α) : Decidable (Clear c xs) := inferInstanceAs (Decidable (∀ a ∈ xs, Clear c a))

instance (n : Node) : Decidable (Clear c n) :=
  inferInstanceAs (Decidable (Clear c n.key ∧ Clear c n.value))

instance (t : Table) : Decidable (Clear c t) :=
  inferInstanceAs (Decidable (Clear c t.array ∧ Clear c t.nodes))

end Decidable

section Lists

variable {α : Type} [Carries α] {l : List α}

theorem clear_of_subset {l' : List α} (h : Clear c l) (hsub : ∀ a ∈ l', a ∈ l) : Clear c l' :=
  fun a ha => h a (hsub a ha)

@[grind .] theorem clear_take (h : Clear c l) (n : Nat) : Clear c (l.take n) :=
  clear_of_subset h fun _ ha => List.mem_of_mem_take ha

@[grind .] theorem clear_drop (h : Clear c l) (n : Nat) : Clear c (l.drop n) :=
  clear_of_subset h fun _ ha => List.mem_of_mem_drop ha

@[grind .] theorem clear_reverse (h : Clear c l) : Clear c l.reverse :=
  clear_of_subset h fun _ ha => List.mem_reverse.mp ha

@[grind .] theorem clear_replicate {a : α} (h : Clear c a) (n : Nat) : Clear c (List.replicate n a) :=
  fun _ hb => List.eq_of_mem_replicate hb ▸ h

@[grind .] theorem clear_zip {β : Type} [Carries β] {l' : List β} (h : Clear c l) (h' : Clear c l') :
    Clear c (l.zip l') :=
  fun _ hp => ⟨h _ (List.of_mem_zip hp).1, h' _ (List.of_mem_zip hp).2⟩

@[grind .] theorem clear_getElem? (h : Clear c l) (i : Nat) : Clear c l[i]? :=
  fun _ ha => h _ (List.mem_of_getElem? ha)

@[grind .] theorem clear_getD_list (h : Clear c l) (i : Nat) {a : α} (ha : Clear c a) :
    Clear c (l.getD i a) := by
  rw [List.getD_eq_getElem?_getD]
  cases hget : l[i]? with
  | none => exact ha
  | some b => exact h b (List.mem_of_getElem? hget)

@[grind .] theorem clear_getD_option {o : Option α} (h : Clear c o) {a : α} (ha : Clear c a) :
    Clear c (o.getD a) := by
  cases o with
  | none => exact ha
  | some b => exact clear_some.mp h

@[grind .] theorem clear_headD (h : Clear c l) {a : α} (ha : Clear c a) : Clear c (l.headD a) := by
  cases l with
  | nil => exact ha
  | cons b rest => exact (clear_cons.mp h).1

end Lists

/-! ## Values -/

@[simp, grind .] theorem ofString_ne_function (s : String) (id : Nat) :
    Value.ofString s ≠ .function id := by
  simp [Value.ofString]

@[grind .] theorem clear_asKey {v : Value} (h : Clear c v) : Clear c v.asKey := by
  unfold Value.asKey
  grind

theorem clear_read? (s : List UInt8) : Clear c (Numeral.read? s) := by
  unfold Numeral.read?
  cases Numeral.int? s <;> cases Numeral.float? s <;> simp

@[grind .] theorem clear_ofValue? (v : Value) : Clear c (Numeral.ofValue? v) := by
  have hread := @clear_read? c
  unfold Numeral.ofValue?
  grind

/-- Numbers are no functions. -/
theorem clear_of_ofValue? {v w : Value} (h : Numeral.ofValue? v = some w) : Clear c w :=
  clear_some.mp (h ▸ clear_ofValue? v)

theorem clear_onInts (op : Operator) (a b : Int64) : Clear c (op.onInts a b) := by
  cases op <;> grind [Operator.onInts]

@[grind .] theorem clear_onNumbers? (op : Operator) (a b : Value) : Clear c (op.onNumbers? a b) := by
  have hints := @clear_onInts c
  unfold Operator.onNumbers?
  grind

/-! ## Arrays -/

section Arrays

variable {α : Type} [Carries α] {xs : Array α} {a d : α}

@[grind .] theorem clear_getElem?_array (h : Clear c xs) (i : Nat) : Clear c xs[i]? :=
  fun _ ha => h _ (Array.mem_of_getElem? ha)

theorem clear_getD_array (h : Clear c xs) (hd : Clear c d) (i : Nat) :
    Clear c (xs.getD i d) := by
  rw [Array.getD_eq_getD_getElem?]
  exact clear_getD_option (clear_getElem?_array h i) hd

@[grind .] theorem clear_push (h : Clear c xs) (ha : Clear c a) : Clear c (xs.push a) := by
  intro b hb
  obtain hb | rfl := Array.mem_push.mp hb
  · exact h b hb
  · exact ha

@[grind .] theorem clear_setIfInBounds (h : Clear c xs) (ha : Clear c a) (i : Nat) :
    Clear c (xs.setIfInBounds i a) := by
  intro b hb
  obtain hb | rfl := Array.mem_or_eq_of_mem_setIfInBounds hb
  · exact h b hb
  · exact ha

@[grind .] theorem clear_set! (h : Clear c xs) (ha : Clear c a) (i : Nat) : Clear c (xs.set! i a) :=
  Array.set!_eq_setIfInBounds ▸ clear_setIfInBounds h ha i

@[grind .] theorem clear_modify (h : Clear c xs) (i : Nat) {f : α → α}
    (hf : ∀ a, Clear c a → Clear c (f a)) : Clear c (xs.modify i f) := by
  intro b hb
  obtain ⟨j, hj, rfl⟩ := Array.getElem_of_mem hb
  rw [Array.getElem_modify]
  split
  · exact hf _ (h _ (Array.getElem_mem _))
  · exact h _ (Array.getElem_mem _)

@[grind .] theorem clear_replicate_array (ha : Clear c a) (n : Nat) :
    Clear c (Array.replicate n a) :=
  fun _ hb => Array.eq_of_mem_replicate hb ▸ ha

@[grind .] theorem clear_extract (h : Clear c xs) (i j : Nat) : Clear c (xs.extract i j) := by
  intro b hb
  obtain ⟨k, hk, rfl⟩ := Array.getElem_of_mem hb
  rw [Array.getElem_extract]
  exact h _ (Array.getElem_mem _)

@[grind .] theorem clear_append_array {ys : Array α} (h : Clear c xs) (h' : Clear c ys) :
    Clear c (xs ++ ys) := fun b hb => (Array.mem_append.mp hb).elim (h b) (h' b)

end Arrays

/-! ## Tables -/

@[grind =] theorem clear_node {n : Node} : Clear c n ↔ Clear c n.key ∧ Clear c n.value := .rfl

@[grind =] theorem clear_table {t : Table} : Clear c t ↔ Clear c t.array ∧ Clear c t.nodes := .rfl

namespace Table

variable {t : Table} {key value : Value}

@[grind .] theorem clear_getKey (h : Clear c t) (key : Value) : Clear c (t.getKey key) := by
  have hslot (i : Nat) : Clear c (t.array.getD i .nil) := clear_getD_array h.1 (by simp) i
  have hnode (i : Nat) : Clear c (t.nodes.getD i {}) := clear_getD_array h.2 (by simp [clear_node]) i
  unfold getKey
  cases t.findNode key <;> dsimp only <;> split <;> try split
  all_goals first | exact hslot _ | exact (hnode _).2 | simp

@[grind .] theorem clear_get (h : Clear c t) (key : Value) : Clear c (t.get key) :=
  clear_getKey h _

@[grind .] theorem clear_getText (h : Clear c t) (key : String) : Clear c (t.getText key) :=
  clear_getKey h _

@[grind .] theorem clear_touch (h : Clear c t) (key : Value) : Clear c (t.touch key) := by
  unfold touch
  grind

theorem clear_freshNodes (count : Nat) : Clear c (freshNodes count) := by
  unfold freshNodes
  split
  · exact fun _ h => by simp at h
  · exact clear_replicate_array (by simp [clear_node]) _

@[grind .] theorem clear_withSizes (arraySize nodeCount : Nat) :
    Clear c (withSizes arraySize nodeCount) :=
  ⟨clear_replicate_array (by simp) _, clear_freshNodes _⟩

@[grind .] theorem clear_empty : Clear c ({} : Table) :=
  ⟨fun _ h => by simp at h, fun _ h => by simp at h⟩

@[grind .] theorem clear_placeKey (h : Clear c t) (hkey : Clear c key) (hvalue : Clear c value) :
    Clear c (t.placeKey key value) := by
  have hthere (i : Nat) : Clear c (t.nodes.getD i {}) :=
    clear_getD_array h.2 (by simp [clear_node]) i
  unfold placeKey
  grind

@[grind .] theorem clear_setExisting (h : Clear c t) (hvalue : Clear c value) :
    Clear c (t.setExisting key value) := by
  have hmodify (i : Nat) : Clear c (t.nodes.modify i fun n => { n with value }) :=
    clear_modify h.2 i fun n hn => ⟨hn.1, hvalue⟩
  unfold setExisting
  cases t.findNode key <;> grind

@[grind .] theorem clear_setWithRoom (h : Clear c t) (hkey : Clear c key) (hvalue : Clear c value) :
    Clear c (t.setWithRoom key value) := by
  have hexisting : Clear c (t.setExisting key value) := clear_setExisting h hvalue
  have hplace := clear_placeKey h hkey hvalue
  unfold setWithRoom
  grind

@[grind .] theorem clear_entriesBehind (h : Clear c t) (arraySize : Nat) :
    Clear c (t.entriesBehind arraySize) := by
  refine clear_append.mpr ⟨fun e he => ?_, fun e he => ?_⟩
  · obtain ⟨i, -, hi⟩ := List.mem_filterMap.mp he
    have hvalue := clear_getD_array h.1 (d := .nil) (by simp) (arraySize + i)
    grind
  · obtain ⟨n, hn, hi⟩ := List.mem_filterMap.mp he
    have hnode : Clear c n := h.2 n (Array.mem_toList_iff.mp hn)
    grind

@[grind .] theorem clear_resize (h : Clear c t) (arraySize nodeCount : Nat) :
    Clear c (t.resize arraySize nodeCount) := by
  have hfold (es : List (Value × Value)) (hes : Clear c es) (t : Table) (ht : Clear c t) :
      Clear c (es.foldl (fun acc e => acc.setWithRoom e.1 e.2) t) := by
    induction es generalizing t with
    | nil => exact ht
    | cons e rest ih =>
      obtain ⟨⟨hkey, hvalue⟩, hrest⟩ := clear_cons.mp hes
      exact ih hrest _ (clear_setWithRoom ht hkey hvalue)
  refine hfold _ (clear_entriesBehind h _) _ ⟨?_, clear_freshNodes _⟩
  exact clear_append_array (clear_extract h.1 _ _) (clear_replicate_array (by simp) _)

@[grind .] theorem clear_setKey (h : Clear c t) (hkey : Clear c key) (hvalue : Clear c value) :
    Clear c (t.setKey key value) := by
  have hexisting : Clear c (t.setExisting key value) := clear_setExisting h hvalue
  have hplace := clear_placeKey h hkey hvalue
  unfold setKey
  grind [grow]

@[grind .] theorem clear_set (h : Clear c t) (hkey : Clear c key) (hvalue : Clear c value) :
    Clear c (t.set key value) := clear_setKey h (clear_asKey hkey) hvalue

@[grind .] theorem clear_setIndex (h : Clear c t) (i : Nat) (hvalue : Clear c value) :
    Clear c (t.setIndex i value) := clear_setKey h (by simp) hvalue

@[grind .] theorem clear_setText (h : Clear c t) (key : String) (hvalue : Clear c value) :
    Clear c (t.setText key value) := clear_setKey h (by simp) hvalue

@[grind .] theorem clear_reserve (h : Clear c t) (arraySize : Nat) :
    Clear c (t.reserve arraySize) := by
  unfold reserve
  grind

/-- Values put behind one another leave a table clear. -/
theorem clear_setItems (h : Clear c t) {values : List Value} (hvalues : Clear c values) (i : Nat) :
    Clear c (values.foldl (fun (acc : Table × Nat) v => (acc.1.setIndex acc.2 v, acc.2 + 1))
      (t, i)).1 := by
  induction values generalizing t i with
  | nil => exact h
  | cons v rest ih =>
    obtain ⟨hv, hrest⟩ := clear_cons.mp hvalues
    exact ih (clear_setIndex h i hv) hrest _

@[grind .] theorem clear_length (h : Clear c t) : Clear c t.length.2 := by
  have hremember (border : Nat) : Clear c (t.remember border) := by
    unfold remember
    split <;> exact h
  unfold length
  grind

@[grind .] theorem clear_entries (h : Clear c t) : Clear c t.entries := by
  have hbehind := clear_entriesBehind h 0
  simpa [entriesBehind, entries] using hbehind

theorem clear_nodesFrom (h : Clear c t) (fuel i : Nat) : Clear c (entryFrom.nodesFrom t fuel i) := by
  induction fuel generalizing i with
  | zero => simp [entryFrom.nodesFrom]
  | succ fuel ih =>
    have hnode := clear_getElem?_array h.2 i
    unfold entryFrom.nodesFrom
    grind

theorem clear_slotsFrom (h : Clear c t) (fuel i : Nat) :
    Clear c (entryFrom.slotsFrom t t.array.size fuel i) := by
  induction fuel generalizing i with
  | zero => exact clear_nodesFrom h _ _
  | succ fuel ih =>
    have hslot := clear_getD_array h.1 (d := .nil) (by simp) i
    unfold entryFrom.slotsFrom
    grind

@[grind .] theorem clear_next? (h : Clear c t) (key : Value) : Clear c (t.next? key) := by
  unfold next?
  cases t.placeOf? key.asKey with
  | none => exact clear_none
  | some place => exact clear_some.mpr (clear_slotsFrom h _ _)

theorem clear_of_next? (h : Clear c t) {k v : Value} (hnext : t.next? key = some (some (k, v))) :
    Clear c k ∧ Clear c v := by
  have hclear := clear_next? h key
  rwa [hnext, clear_some, clear_some, clear_pair] at hclear

end Table

end Sandbox.Script
