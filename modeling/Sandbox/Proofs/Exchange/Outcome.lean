import Sandbox.Exchange
import Mathlib.Data.List.Forall2

/-!
# Outcomes of exchanges

An exchange runs on a machine and ends on a machine, with a result or an error of its own.
`Exchange.Yields` states how it ends, with one law for each way to put exchanges together, so that the
exchanges of whole tables need not be unfolded. `pullTable_succ` cuts the reading of a table into the
reading of one entry and the check of the length.
-/

namespace Sandbox
namespace Exchange

open Script

variable {H W : Type} {α β γ : Type}

/-- The exchange leads from one machine to another and has this result. -/
def Yields (act : Exchanging H W α) (m : Machine H W) (r : Except Error α) (m' : Machine H W) : Prop :=
  act.run.run m = .ok r m'

section Laws

variable {act : Exchanging H W α} {next : α → Exchanging H W β} {m m' m'' : Machine H W}

theorem Yields.pure (a : α) (m : Machine H W) : Yields (Pure.pure a) m (.ok a) m := rfl

theorem Yields.throw (e : Error) (m : Machine H W) :
    Yields (MonadExcept.throw e : Exchanging H W α) m (.error e) m := rfl

/-- After a result the exchange goes on with it. -/
theorem Yields.bind {a : α} {r : Except Error β} (h : Yields act m (.ok a) m')
    (hnext : Yields (next a) m' r m'') : Yields (act >>= next) m r m'' := by
  unfold Yields at *
  simp only [ExceptT.run_bind, EStateM.run_bind, h]
  exact hnext

/-- After an error nothing more happens. -/
theorem Yields.bind_error {e : Error} (h : Yields act m (.error e) m') :
    Yields (act >>= next) m (.error e) m' := by
  unfold Yields at *
  simp only [ExceptT.run_bind, EStateM.run_bind, h]
  rfl

/-- What succeeds on a condition goes on, on this condition, to what follows without an error. -/
theorem Yields.bind_if {good : Prop} [Decidable good] {a : α} {b : β} {e : Error}
    (h : Yields act m (if good then .ok a else .error e) m')
    (hnext : Yields (next a) m' (.ok b) m') :
    Yields (act >>= next) m (if good then .ok b else .error e) m' := by
  by_cases hgood : good
  · rw [if_pos hgood] at h ⊢
    exact h.bind hnext
  · rw [if_neg hgood] at h ⊢
    exact h.bind_error

/-- A run of the machine is an exchange without an error of its own. -/
theorem Yields.lift {run : Run H W α} {a : α} (h : run m = .ok a m') :
    Yields (liftM run : Exchanging H W α) m (.ok a) m' := by
  change EStateM.map Except.ok run m = _
  simp only [EStateM.map, h]

/-- An outcome is an exchange that changes nothing. -/
theorem Yields.liftExcept (r : Except Error α) (m : Machine H W) :
    Yields (pullTable.liftExcept r) m r m := by
  cases r <;> rfl

/-- Exchanges for the items of a list, each of which leaves the machine and succeeds on some condition
or fails with one and the same error, together leave the machine and succeed on all conditions. -/
theorem Yields.mapM {f : α → Exchanging H W β} {R : α → γ → Prop} (good : γ → Prop)
    [DecidablePred good] {out : γ → β} {e : Error} {as : List α} {cs : List γ}
    (hrel : List.Forall₂ R as cs)
    (hstep : ∀ a c, R a c → Yields (f a) m (if good c then .ok (out c) else .error e) m) :
    Yields (as.mapM f) m (if ∀ c ∈ cs, good c then .ok (cs.map out) else .error e) m := by
  induction hrel with
  | nil => simpa using Yields.pure [] m
  | @cons a c as cs hac _ ih =>
    rw [List.mapM_cons]
    have hfirst := hstep a c hac
    by_cases hgood : good c
    · rw [if_pos hgood] at hfirst
      refine hfirst.bind ?_
      by_cases hrest : ∀ c ∈ cs, good c
      · rw [if_pos hrest] at ih
        rw [if_pos (by simpa [hgood] using hrest)]
        exact ih.bind (Yields.pure _ m)
      · rw [if_neg hrest] at ih
        rw [if_neg (by simpa [hgood] using hrest)]
        exact ih.bind_error
    · rw [if_neg hgood] at hfirst
      rw [if_neg (by simp [hgood])]
      exact hfirst.bind_error

/-- An exchange with a result has one in its first part. -/
theorem Yields.exists_of_bind {b : β} (h : Yields (act >>= next) m (.ok b) m'') :
    ∃ a m', Yields act m (.ok a) m' ∧ Yields (next a) m' (.ok b) m'' := by
  unfold Yields at *
  simp only [ExceptT.run_bind, EStateM.run_bind] at h
  cases hact : act.run.run m with
  | error stop m' =>
    rw [hact] at h
    cases h
  | ok r m' =>
    rw [hact] at h
    cases r with
    | error e => cases h
    | ok a => exact ⟨a, m', rfl, h⟩

/-- A run of the machine ends as an exchange ends of which it is the whole. -/
theorem Yields.of_lift {run : Run H W α} {a : α}
    (h : Yields (liftM run : Exchanging H W α) m (.ok a) m') : run m = .ok a m' := by
  change EStateM.map Except.ok run m = _ at h
  unfold EStateM.map at h
  cases hrun : run m with
  | ok b m'' =>
    rw [hrun] at h
    cases h
    rfl
  | error stop m'' =>
    rw [hrun] at h
    cases h

/-- What holds of all results of exchanges for single items, and of how they change the machine, holds
of the results for a list of them. -/
theorem Yields.of_mapM {f : α → Exchanging H W β} {Good : Machine H W → Prop}
    {Leads : Machine H W → Machine H W → Prop} {R : α → β → Prop} {as : List α} {bs : List β}
    (hrefl : ∀ m, Leads m m) (htrans : ∀ m m' m'', Leads m m' → Leads m' m'' → Leads m m'')
    (hstep : ∀ a ∈ as, ∀ m b m', Good m → Yields (f a) m (.ok b) m' → Good m' ∧ Leads m m' ∧ R a b)
    (hgood : Good m) (h : Yields (as.mapM f) m (.ok bs) m') :
    Good m' ∧ Leads m m' ∧ List.Forall₂ R as bs := by
  induction as generalizing m bs with
  | nil =>
    cases h
    exact ⟨hgood, hrefl _, .nil⟩
  | cons a as ih =>
    rw [List.mapM_cons] at h
    obtain ⟨b, m₁, hfirst, h⟩ := h.exists_of_bind
    obtain ⟨bs', m₂, hrest, h⟩ := h.exists_of_bind
    cases h
    obtain ⟨hgood₁, hleads₁, hb⟩ := hstep a List.mem_cons_self _ b m₁ hgood hfirst
    obtain ⟨hgood₂, hleads₂, hbs⟩ :=
      ih (fun a ha => hstep a (List.mem_cons_of_mem _ ha)) hgood₁ hrest
    exact ⟨hgood₂, htrans _ _ _ hleads₁ hleads₂, .cons hb hbs⟩

end Laws

/-! ## Tables of a machine -/

section Machine

variable {m : Machine H W} {id : Nat} {t : Table}

theorem run_table (h : m.tables[id]? = some t) : (Run.table id : Run H W Table) m = .ok t m := by
  change EStateM.Result.ok (m.tables.getD id {}) m = _
  simp [Array.getD_eq_getD_getElem?, h]

theorem run_newTable (t : Table) : (Run.newTable t : Run H W Nat) m =
    .ok m.tables.size { m with tables := m.tables.push t } := rfl

theorem run_modifyTable (f : Table → Table) : (Run.modifyTable id f : Run H W Unit) m =
    .ok () { m with tables := m.tables.modify id f } := rfl

/-- Measuring a table that remembers nothing new leaves the machine as it is. -/
theorem run_rawLength {n : Nat} (h : m.tables[id]? = some t) (hlength : t.length = (n, t)) :
    (Run.rawLength id : Run H W Nat) m = .ok n m := by
  have hsame : m.tables.modify id (·.length.2) = m.tables := by
    refine Array.ext_getElem? fun i => ?_
    rw [Array.getElem?_modify]
    split
    case isTrue heq => rw [← heq, h, Option.map_some, hlength]
    case isFalse => rfl
  have hrun : (Run.rawLength id : Run H W Nat) m =
      .ok t.length.1 { m with tables := m.tables.modify id (·.length.2) } := by
    change EStateM.Result.ok (m.tables.getD id {}).length.1 _ = _
    simp [Array.getD_eq_getD_getElem?, h]
  rw [hrun, hlength, hsame]

/-- A run that raises nothing ends for the host as it does for scripts. -/
theorem run_guarded {act : Run H W α} {a : α} {m' : Machine H W} (invoke : Invoke H W)
    (h : act m = .ok a m') : Run.guarded invoke act m = .ok (.ok a) m' := by
  have hprotect : Run.protect act m = .ok (.ok a) m' := by
    change (EStateM.tryCatch (EStateM.map Except.ok act) _) m = _
    simp only [EStateM.tryCatch, EStateM.map, h]
  change EStateM.bind (Run.protect act) _ m = _
  simp only [EStateM.bind, hprotect]
  rfl

/-- The length of a table without a metatable is its border. -/
theorem Yields.lengthOf {n : Nat} (invoke : Invoke H W) (h : m.tables[id]? = some t)
    (hmeta : t.metatable = none) (hlength : t.length = (n, t)) :
    Yields (lengthOf invoke id) m (.ok (n : Int)) m := by
  refine (Yields.lift (run_table h)).bind ?_
  refine (Yields.lift (run_guarded invoke (a := (n : Int)) ?_)).bind (Yields.pure _ m)
  rw [if_pos (by simp [hmeta])]
  change EStateM.bind (Run.rawLength id) _ m = _
  simp only [EStateM.bind, run_rawLength h hlength]
  rfl

end Machine

/-! ## One entry of a table -/

/-- The plain value of what a table with this many tables allowed in it holds. -/
def pullInner (invoke : Invoke H W) (depth : Nat) (v : Value) : Exchanging H W Datum :=
  match v with
  | .table id => pullTable invoke depth id
  | v => pullTable.liftExcept (scalar v)

/-- The index and the plain value of an entry of a list. -/
def pullItem (invoke : Invoke H W) (depth : Nat) (length : Int) (entry : Value × Value) :
    Exchanging H W (Int × Datum) := do
  let i ← pullTable.liftExcept (indexOf entry.1)
  if i < 1 || i > length then throw (.indexOutside i length)
  return (i, ← pullInner invoke depth entry.2)

/-- The key and the plain value of an entry of a record. -/
def pullField (invoke : Invoke H W) (depth : Nat) (entry : Value × Value) :
    Exchanging H W (String × Datum) := do
  let key ← pullTable.liftExcept (keyText entry.1)
  return (key, ← pullInner invoke depth entry.2)

/-- A list of these items, for a table that says that it has this length. -/
def makeList (id : Nat) (length : Int) (items : List (Int × Datum)) : Exchanging H W Datum := do
  let border ← (Run.rawLength id : Run H W Nat)
  if length > border then
    let held := max border (items.map (·.1)).eraseDups.length
    if length > held then throw (.indexOutside length held)
  return .list (listItems length.toNat items)

/-- A table is measured and then read as a list or as a record, entry by entry. -/
theorem pullTable_succ (invoke : Invoke H W) (depth id : Nat) :
    pullTable invoke (depth + 1) id = do
      let length ← lengthOf invoke id
      let t ← (Run.table id : Run H W Table)
      if length > 0 then makeList id length (← t.entries.mapM (pullItem invoke depth length))
      else return .ofFields (← t.entries.mapM (pullField invoke depth)) := by
  rfl

end Exchange
end Sandbox
