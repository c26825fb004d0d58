import Mathlib.Logic.Relation
import Sandbox.Proofs.Exchange.Ending

/-!
# Tables inside one another

The tables of a machine hold one another in any way, also themselves. Reading a table follows them, and
gives up where more of them are inside one another than reading allows. So a table that holds itself, be
it through others, is always refused, and where a table is read there are no such tables in it.
-/

namespace Sandbox

open Script Script.Machine Relation

variable {H W : Type} {invoke : Invoke H W} {m m' m₀ : Machine H W} {id child other depth n : Nat}

namespace Script.Machine

/-- A table is the value of a key in another one. -/
def Holds (m : Machine H W) (id child : Nat) : Prop :=
  ∃ key, (key, .table child) ∈ (m.tableAt id).entries

/-- So many tables are inside one another, with this one as the outermost. -/
inductive Nests (m : Machine H W) : Nat → Nat → Prop
  | alone (id : Nat) : Nests m id 1
  | inside {id child n : Nat} (h : m.Holds id child) (hchild : Nests m child n) : Nests m id (n + 1)

/-- A table to which one comes from a table through values holds itself, or a table that holds itself
through others. -/
def HasCycle (m : Machine H W) (id : Nat) : Prop :=
  ∃ other, ReflTransGen m.Holds id other ∧ TransGen m.Holds other other

/-- All tables to which one comes from a table are there. -/
def Closed (m : Machine H W) (id : Nat) : Prop :=
  ∀ other, ReflTransGen m.Holds id other → other < m.tables.size

theorem Closed.of_holds (h : m.Closed id) (hchild : m.Holds id child) : m.Closed child :=
  fun other hother => h other (.head hchild hother)

theorem Nests.of_path (hpath : ReflTransGen m.Holds id other) (h : m.Nests other n) :
    ∃ k, n ≤ k ∧ m.Nests id k := by
  induction hpath using ReflTransGen.head_induction_on with
  | refl => exact ⟨n, Nat.le_refl n, h⟩
  | head hchild _ ih =>
    obtain ⟨k, hk, hnests⟩ := ih
    exact ⟨k + 1, Nat.le_succ_of_le hk, .inside hchild hnests⟩

/-- Where a table holds itself, there is no limit to how many tables are inside one another. -/
theorem HasCycle.exists_nests (h : m.HasCycle id) (n : Nat) : ∃ k, n < k ∧ m.Nests id k := by
  obtain ⟨other, hpath, hcycle⟩ := h
  have hround : ∃ k, n < k ∧ m.Nests other k := by
    induction n with
    | zero => exact ⟨1, Nat.one_pos, .alone other⟩
    | succ n ih =>
      obtain ⟨k, hk, hnests⟩ := ih
      obtain ⟨child, hchild, hback⟩ := TransGen.head'_iff.mp hcycle
      obtain ⟨k', hk', hnests'⟩ := hnests.of_path hback
      exact ⟨k' + 1, by omega, .inside hchild hnests'⟩
  obtain ⟨k, hk, hnests⟩ := hround
  obtain ⟨k', hk', hnests'⟩ := hnests.of_path hpath
  exact ⟨k', by omega, hnests'⟩

end Script.Machine

namespace Exchange

/-- Why a table cannot be read, whatever is in the tables that it holds. -/
inductive Flaw (invoke : Invoke H W) (m₀ : Machine H W) (id : Nat) : Error → Prop
  /-- It has no length. -/
  | length {e : Error} (h : Measures invoke m₀ id (.error e)) : Flaw invoke m₀ id e
  /-- It holds a value without a plain form. -/
  | value {entry : Value × Value} {e : Error} (hentry : entry ∈ (m₀.tableAt id).entries)
      (htable : ∀ child, entry.2 ≠ .table child) (h : scalar entry.2 = .error e) : Flaw invoke m₀ id e
  /-- It is a record, and one of its keys is neither a text nor a number. -/
  | key {entry : Value × Value} {length : Int} {e : Error}
      (hlength : Measures invoke m₀ id (.ok length)) (hrecord : length ≤ 0)
      (hentry : entry ∈ (m₀.tableAt id).entries) (h : keyText entry.1 = .error e) : Flaw invoke m₀ id e
  /-- It is a list, and one of its keys is no index. -/
  | index {entry : Value × Value} {length : Int} {e : Error}
      (hlength : Measures invoke m₀ id (.ok length)) (hlist : 0 < length)
      (hentry : entry ∈ (m₀.tableAt id).entries) (h : indexOf entry.1 = .error e) : Flaw invoke m₀ id e
  /-- It is a list, and one of its keys is not an index of an item. -/
  | outside {entry : Value × Value} {length i : Int}
      (hlength : Measures invoke m₀ id (.ok length)) (hlist : 0 < length)
      (hentry : entry ∈ (m₀.tableAt id).entries) (hindex : indexOf entry.1 = .ok i)
      (hout : ¬(1 ≤ i ∧ i ≤ length)) : Flaw invoke m₀ id (.indexOutside i length)
  /-- It is a list, and it says that it is longer than its border and the number of its indices. -/
  | long {m : Machine H W} {items : List (Int × Datum)} {length : Int}
      (hlength : Measures invoke m₀ id (.ok length)) (hlist : 0 < length) (hm : Measured invoke m₀ m)
      (hitems : List.Forall₂ (fun entry item => indexOf entry.1 = .ok item.1)
        (m₀.tableAt id).entries items)
      (hheld : held m id items < length) : Flaw invoke m₀ id (.indexOutside length (held m id items))

/-- Why reading a table that allows for so many tables inside one another ends with an error: there are
more, or one of the tables has a flaw. -/
def Excuses (invoke : Invoke H W) (m₀ : Machine H W) (depth id : Nat) (e : Error) : Prop :=
  (e = .tooDeep ∧ ∃ n, depth < n ∧ m₀.Nests id n) ∨
    ∃ other, ReflTransGen m₀.Holds id other ∧ Flaw invoke m₀ other e

theorem Excuses.of_flaw {e : Error} (h : Flaw invoke m₀ id e) : Excuses invoke m₀ depth id e :=
  .inr ⟨id, .refl, h⟩

/-- An error in a table that is held is one in the table. -/
theorem Excuses.of_child {e : Error} (hchild : m₀.Holds id child)
    (h : Excuses invoke m₀ depth child e) : Excuses invoke m₀ (depth + 1) id e := by
  rcases h with ⟨he, n, hn, hnests⟩ | ⟨other, hpath, hflaw⟩
  · exact .inl ⟨he, n + 1, by omega, .inside hchild hnests⟩
  · exact .inr ⟨other, .head hchild hpath, hflaw⟩

/-- No table that a value is has more than so many tables inside one another. -/
def Shallow (m : Machine H W) (depth : Nat) (v : Value) : Prop :=
  ∀ child, v = .table child → ∀ n, m.Nests child n → n ≤ depth

/-- What the entries of a table hold is shallow, so the table is. -/
theorem nests_le_of_shallow (h : ∀ entry ∈ (m.tableAt id).entries, Shallow m depth entry.2)
    (hn : m.Nests id n) : n ≤ depth + 1 := by
  cases hn with
  | alone => omega
  | inside hchild hnests =>
    obtain ⟨key, hentry⟩ := hchild
    have := h _ hentry _ rfl _ hnests
    omega

/-- What a table holds is read as its tables are. -/
theorem settles_pullInner {v : Value} {P : Datum → Prop} {Q : Error → Prop}
    (hdeep : ∀ child, v = .table child → Settles invoke m₀ (pullTable invoke depth child) P Q)
    (hscalar : (∀ child, v ≠ .table child) →
      (∀ d, scalar v = .ok d → P d) ∧ ∀ e, scalar v = .error e → Q e) :
    Settles invoke m₀ (pullInner invoke depth v) P Q := by
  by_cases htable : ∃ child, v = .table child
  · obtain ⟨child, rfl⟩ := htable
    exact hdeep child rfl
  · have hnone : ∀ child, v ≠ .table child := fun child h => htable ⟨child, h⟩
    have hinner : pullInner invoke depth v = pullTable.liftExcept (scalar v) := by
      unfold pullInner
      split
      · exact absurd rfl (hnone _)
      · rfl
    rw [hinner]
    exact .liftExcept (hscalar hnone).1 (hscalar hnone).2

/-- What an entry of a table holds is read as its tables are: with a value it is shallow, and otherwise
the table is excused. -/
theorem settles_entry {entries : List (Value × Value)} {entry : Value × Value}
    (hentries : m₀.Closed id → entries = (m₀.tableAt id).entries) (hentry : entry ∈ entries)
    (htables : ∀ child, Settles invoke m₀ (pullTable invoke depth child)
      (fun _ => m₀.Closed child → ∀ n, m₀.Nests child n → n ≤ depth)
      fun e => m₀.Closed child → Excuses invoke m₀ depth child e) :
    Settles invoke m₀ (pullInner invoke depth entry.2)
      (fun _ => m₀.Closed id → Shallow m₀ depth entry.2)
      fun e => m₀.Closed id → Excuses invoke m₀ (depth + 1) id e := by
  have hholds (hclosed : m₀.Closed id) (child : Nat) (hchild : entry.2 = .table child) :
      m₀.Holds id child := ⟨entry.1, by rw [← hchild, ← hentries hclosed]; exact hentry⟩
  refine settles_pullInner (fun child hchild => (htables child).mono (fun _ h hclosed => ?_)
    fun e h hclosed => ?_) fun hnone => ⟨fun _ _ _ child hchild => absurd hchild (hnone child),
      fun e he hclosed => ?_⟩
  · intro other hother
    obtain rfl := Value.table.inj (hchild.symm.trans hother)
    exact h (hclosed.of_holds (hholds hclosed child hchild))
  · have hchild := hholds hclosed child hchild
    exact .of_child hchild (h (hclosed.of_holds hchild))
  · exact .of_flaw (.value (hentries hclosed ▸ hentry) hnone he)

/-- Reading a table ends. With a value, no more tables are inside one another than reading allows;
otherwise there are, or one of the tables has a flaw. -/
theorem settles_pullTable (haddr : m₀.Addressable) (hkeep : m₀.LengthsKeep invoke)
    (hanswer : m₀.LengthsAnswer invoke) (depth : Nat) :
    ∀ id, Settles invoke m₀ (pullTable invoke depth id)
      (fun _ => m₀.Closed id → ∀ n, m₀.Nests id n → n ≤ depth)
      fun e => m₀.Closed id → Excuses invoke m₀ depth id e := by
  induction depth with
  | zero => exact fun id => .throw fun _ => .inl ⟨rfl, 1, Nat.one_pos, .alone id⟩
  | succ depth ih =>
    intro id
    rw [pullTable_succ]
    refine ((settles_lengthOf haddr hkeep hanswer id).mono (fun _ h => h)
      fun e he _ => .of_flaw (.length he)).bind fun length hlength => ?_
    refine (settles_table hkeep id).bind fun t ht => ?_
    have hentries (hclosed : m₀.Closed id) : t.entries = (m₀.tableAt id).entries :=
      ht (hclosed id .refl)
    have hshallow (h : ∀ entry ∈ t.entries, m₀.Closed id → Shallow m₀ depth entry.2) :
        m₀.Closed id → ∀ n, m₀.Nests id n → n ≤ depth + 1 := by
      intro hclosed n hnests
      refine nests_le_of_shallow (fun entry hentry => ?_) hnests
      exact h entry (by rwa [hentries hclosed]) hclosed
    split
    · rename_i hpos
      refine (Settles.mapM fun entry hentry => Settles.pullItem
        (fun e he hclosed => .of_flaw (.index hlength hpos (hentries hclosed ▸ hentry) he))
        (fun i hi hout hclosed =>
          .of_flaw (.outside hlength hpos (hentries hclosed ▸ hentry) hi hout))
        (settles_entry hentries hentry ih)).bind fun items hitems => settles_makeList ?_ ?_
      · refine hshallow fun entry hentry => ?_
        obtain ⟨item, -, -, h⟩ := exists_of_mem_left hitems hentry
        exact h
      · intro m hm hheld hclosed
        refine .of_flaw (.long hlength hpos hm ?_ hheld)
        rw [← hentries hclosed]
        exact hitems.imp fun _ _ h => h.1
    · rename_i hrecord
      refine (Settles.mapM fun entry hentry => Settles.pullField
        (fun e he hclosed => .of_flaw (.key hlength (by omega) (hentries hclosed ▸ hentry) he))
        (settles_entry hentries hentry ih)).bind fun fields hfields => .pure (hshallow fun entry hentry => ?_)
      obtain ⟨field, -, h⟩ := exists_of_mem_left hfields hentry
      exact h

/-- Reading a table always ends, however its tables hold one another. If it ends with a value, there is
no table that holds itself, and no more than 200 tables are inside one another, nor are more lists and
records in the value. If too many tables are inside one another, or one holds itself, reading ends with an
error, which says so unless one of the tables has a flaw. -/
theorem pull_ends (invoke : Invoke H W) (m : Machine H W) (id : Nat) (haddr : m.Addressable)
    (hkeep : m.LengthsKeep invoke) (hanswer : m.LengthsAnswer invoke) (hclosed : m.Closed id) :
    ∃ r m', Yields (pull invoke id) m r m' ∧
      (∀ d, r = .ok d → (∀ n, m.Nests id n → n ≤ 200) ∧ ¬m.HasCycle id ∧ d.depth ≤ 200) ∧
      (∀ e, r = .error e → (e = .tooDeep ∧ ∃ n, 200 < n ∧ m.Nests id n) ∨
        ∃ other, ReflTransGen m.Holds id other ∧ Flaw invoke m other e) ∧
      ((∃ n, 200 < n ∧ m.Nests id n) ∨ m.HasCycle id → (∃ e, r = .error e) ∧
        ((∀ other e, ReflTransGen m.Holds id other → ¬Flaw invoke m other e) →
          r = .error .tooDeep)) := by
  obtain ⟨r, m', hpull, hok, herror⟩ := settles_pullTable haddr hkeep hanswer depthLimit id m .start
  have hdeep : (∃ n, 200 < n ∧ m.Nests id n) ∨ m.HasCycle id → ∃ n, 200 < n ∧ m.Nests id n := by
    rintro (h | h)
    · exact h
    · exact h.exists_nests 200
  have hlimit (d : Datum) (hd : r = .ok d) (n : Nat) (hn : m.Nests id n) : n ≤ 200 :=
    (hok d hd).2 hclosed n hn
  refine ⟨r, m', hpull, fun d hd => ⟨hlimit d hd, fun hcycle => ?_, ?_⟩,
    fun e he => herror e he hclosed, fun h => ?_⟩
  · obtain ⟨n, hn, hnests⟩ := hdeep (.inr hcycle)
    have := hlimit d hd n hnests
    omega
  · subst hd
    exact (gives_pullTable hkeep depthLimit id m d m' ⟨.start, haddr⟩ hpull).2.2.depth_le
  · obtain ⟨n, hn, hnests⟩ := hdeep h
    cases r with
    | ok d =>
      have := hlimit d rfl n hnests
      omega
    | error e =>
      refine ⟨⟨e, rfl⟩, fun hnone => ?_⟩
      rcases herror e rfl hclosed with ⟨he, -⟩ | ⟨other, hpath, hflaw⟩
      · rw [he]
      · exact absurd hflaw (hnone other e hpath)

/-- A machine with a table that holds itself. -/
def selfish : Machine Empty Unit where
  tables := #[({} : Table).setText "self" (.table 0)]
  world := ()

theorem entries_selfish : (selfish.tableAt 0).entries = [(.ofString "self", .table 0)] := by
  decide +kernel

theorem eq_of_reaches_selfish (h : ReflTransGen selfish.Holds 0 other) : other = 0 := by
  induction h with
  | refl => rfl
  | tail _ hchild ih =>
    obtain ⟨key, hentry⟩ := hchild
    rw [ih, entries_selfish] at hentry
    exact Value.table.inj (Prod.mk.inj (List.mem_singleton.mp hentry)).2

/-- Measuring this table finds nothing. -/
theorem eq_selfish_of_measured {invoke : Invoke Empty Unit} {m : Machine Empty Unit}
    (h : Measured invoke selfish m) : m = selfish := by
  have hmeta (id : Nat) : (selfish.tableAt id).metatable = none := by
    match id with
    | 0 => decide +kernel
    | n + 1 => rfl
  induction h with
  | start => rfl
  | border id h ih =>
    subst ih
    match id with
    | 0 => rfl
    | n + 1 => rfl
  | call h hevent hcall ih =>
    subst ih
    rw [lengthEvent, hmeta] at hevent
    exact absurd rfl hevent

theorem pull_ends_of_selfish :
    let invoke : Invoke Empty Unit := fun _ _ _ => pure [.int 0]
    selfish.Addressable ∧ selfish.LengthsKeep invoke ∧ selfish.LengthsAnswer invoke ∧
      selfish.Closed 0 ∧ selfish.HasCycle 0 ∧
      (∀ other e, ReflTransGen selfish.Holds 0 other → ¬Flaw invoke selfish other e) ∧
      ∃ m', Yields (pull invoke 0) selfish (.error .tooDeep) m' := by
  intro invoke
  have haddr : selfish.Addressable := addressable_of_forall (by decide +kernel)
  have hkeep : selfish.LengthsKeep invoke := lengthsKeep_pure [.int 0] selfish
  have hanswer : selfish.LengthsAnswer invoke := lengthsAnswer_pure (by decide) selfish
  have hclosed : selfish.Closed 0 := by
    intro other hpath
    rw [eq_of_reaches_selfish hpath]
    exact Nat.one_pos
  have hcycle : selfish.HasCycle 0 :=
    ⟨0, .refl, .single ⟨.ofString "self", by rw [entries_selfish]; exact List.mem_singleton_self _⟩⟩
  have hmeasures (r : Except Error Int) (h : Measures invoke selfish 0 r) : r = .ok 0 := by
    obtain ⟨m, m', hm, hlength⟩ := h
    obtain rfl := eq_selfish_of_measured hm
    have hzero : Yields (lengthOf invoke 0) selfish (.ok 0) selfish := rfl
    exact (EStateM.Result.ok.inj (hlength.symm.trans hzero)).1
  have hflawless (other : Nat) (e : Error) (hpath : ReflTransGen selfish.Holds 0 other) :
      ¬Flaw invoke selfish other e := by
    obtain rfl := eq_of_reaches_selfish hpath
    intro hflaw
    cases hflaw with
    | length h => cases hmeasures _ h
    | value hentry htable =>
      rw [entries_selfish, List.mem_singleton] at hentry
      exact htable 0 (congrArg Prod.snd hentry)
    | key _ _ hentry h =>
      rw [entries_selfish, List.mem_singleton] at hentry
      rw [hentry] at h
      have htext : keyText (.ofString "self") = .ok "self" := by decide +kernel
      cases htext.symm.trans h
    | index hlength hlist => cases hmeasures _ hlength; omega
    | outside hlength hlist => cases hmeasures _ hlength; omega
    | long hlength hlist => cases hmeasures _ hlength; omega
  refine ⟨haddr, hkeep, hanswer, hclosed, hcycle, hflawless, ?_⟩
  obtain ⟨r, m', hpull, -, -, hdeep⟩ := pull_ends invoke selfish 0 haddr hkeep hanswer hclosed
  exact ⟨m', (hdeep (.inr hcycle)).2 hflawless ▸ hpull⟩

end Exchange
end Sandbox
