import Sandbox.Proofs.Script.Entries
import Sandbox.Script.Host

/-!
# Laws of runs

A run goes on from where its first part has led. On a table without a metatable the host gets a field
and sets it without calling anything.
-/

namespace Sandbox.Script

variable {H W : Type} {α β : Type} {m m' : Machine H W}

namespace Machine

/-- The table with a number, which is empty if there is none. -/
def tableAt (m : Machine H W) (id : Nat) : Table := m.tables.getD id {}

/-- The machine with another table at this number, if there is one. -/
def setTable (m : Machine H W) (id : Nat) (t : Table) : Machine H W :=
  { m with tables := m.tables.setIfInBounds id t }

/-- The table with a number is there and has no metatable. -/
structure IsPlain (m : Machine H W) (id : Nat) : Prop where
  isThere : id < m.tables.size
  metatable : (m.tableAt id).metatable = none

@[simp] theorem setTable_tableAt (m : Machine H W) (id : Nat) : m.setTable id (m.tableAt id) = m := by
  have hsame : m.tables.setIfInBounds id (m.tables.getD id {}) = m.tables := by
    refine Array.ext (by simp) fun i hi _ => ?_
    rw [Array.getElem_setIfInBounds (by simpa using hi)]
    split
    case isTrue heq =>
      subst heq
      have hlt : id < m.tables.size := by simpa using hi
      simp [hlt]
    case isFalse => rfl
  rw [setTable, tableAt, hsame]

theorem tableAt_setTable {id : Nat} (h : id < m.tables.size) (t : Table) :
    (m.setTable id t).tableAt id = t := by
  simp [tableAt, setTable, h]

theorem tableAt_setTable_of_ne {id other : Nat} (h : id ≠ other) (t : Table) :
    (m.setTable id t).tableAt other = m.tableAt other := by
  simp [tableAt, setTable, Array.getD_eq_getD_getElem?, h]

@[simp] theorem setTable_setTable (m : Machine H W) (id : Nat) (s t : Table) :
    (m.setTable id s).setTable id t = m.setTable id t := by
  simp [setTable]

@[simp] theorem loaded_setTable (m : Machine H W) (id : Nat) (t : Table) :
    (m.setTable id t).loaded = m.loaded := rfl

@[simp] theorem world_setTable (m : Machine H W) (id : Nat) (t : Table) :
    (m.setTable id t).world = m.world := rfl

@[simp] theorem size_tables_setTable (m : Machine H W) (id : Nat) (t : Table) :
    (m.setTable id t).tables.size = m.tables.size := by
  simp [setTable]

end Machine

namespace Table

/-- To look at a text key changes nothing. -/
@[simp] theorem touch_ofString (t : Table) (key : String) : t.touch (.ofString key) = t := by
  unfold touch
  split <;> rfl

theorem metatable_of_setExisting {t t' : Table} {key value : Value}
    (h : t.setExisting key value = some t') : t'.metatable = t.metatable := by
  have hnodes : (t.findNode key).map (fun i =>
      { t with nodes := t.nodes.modify i fun n => { n with value } }) = some t' →
      t'.metatable = t.metatable := by
    intro hmap
    obtain ⟨i, -, rfl⟩ := Option.map_eq_some_iff.mp hmap
    rfl
  unfold setExisting at h
  split at h
  case h_1 =>
    split at h
    case h_1 =>
      obtain rfl := Option.some.inj h
      rfl
    case h_2 => exact hnodes h
  case h_2 => exact hnodes h

theorem metatable_of_placeKey {t t' : Table} {key value : Value}
    (h : t.placeKey key value = some t') : t'.metatable = t.metatable := by
  unfold placeKey at h
  grind

theorem metatable_setWithRoom (t : Table) (key value : Value) :
    (t.setWithRoom key value).metatable = t.metatable := by
  unfold setWithRoom
  split
  case h_1 h => exact metatable_of_setExisting h
  case h_2 =>
    split
    case isTrue => rfl
    case isFalse =>
      cases h : t.placeKey key value with
      | none => rfl
      | some t' => exact metatable_of_placeKey h

theorem metatable_resize (t : Table) (arraySize nodeCount : Nat) :
    (t.resize arraySize nodeCount).metatable = t.metatable := by
  have hfold (entries : List (Value × Value)) (start : Table) :
      (entries.foldl (fun acc e => acc.setWithRoom e.1 e.2) start).metatable = start.metatable := by
    induction entries generalizing start with
    | nil => rfl
    | cons e rest ih => rw [List.foldl_cons, ih, metatable_setWithRoom]
  exact hfold _ _

/-- Setting a key of a table leaves its metatable. -/
theorem metatable_setKey (t : Table) (key value : Value) :
    (t.setKey key value).metatable = t.metatable := by
  unfold setKey
  split
  case h_1 h => exact metatable_of_setExisting h
  case h_2 =>
    split
    case isTrue => rfl
    case isFalse =>
      split
      case h_1 h => exact metatable_of_placeKey h
      case h_2 => rw [metatable_setWithRoom, grow, metatable_resize]

theorem metatable_setText (t : Table) (key : String) (v : Value) :
    (t.setText key v).metatable = t.metatable := metatable_setKey t _ v

end Table

namespace Value

/-- A text of the host is read as this text. -/
theorem decodeText_ofString (target s : String) : decodeText target s.toUTF8 = .ok s := by
  rw [decodeText, show s.toUTF8 = s.toByteArray from rfl, ByteArray.toText_toByteArray]
  rfl

theorem toHostText_ofString (s : String) : toHostText (.ofString s) = .ok s :=
  decodeText_ofString "String" s

end Value

namespace Run

/-! ## Sequences -/

theorem bind_ok {act : Run H W α} {next : α → Run H W β} {a : α} (h : act.run m = .ok a m') :
    (act >>= next).run m = (next a).run m' := by
  rw [EStateM.run_bind, h]

theorem bind_error {act : Run H W α} {next : α → Run H W β} {stop : Stop}
    (h : act.run m = .error stop m') : (act >>= next).run m = .error stop m' := by
  rw [EStateM.run_bind, h]

/-- A run that ends well has a first part that does. -/
theorem exists_of_bind {act : Run H W α} {next : α → Run H W β} {b : β}
    (h : (act >>= next).run m = .ok b m') :
    ∃ a m₁, act.run m = .ok a m₁ ∧ (next a).run m₁ = .ok b m' := by
  rw [EStateM.run_bind] at h
  cases hact : act.run m with
  | error stop m₁ =>
    rw [hact] at h
    cases h
  | ok a m₁ =>
    rw [hact] at h
    exact ⟨a, m₁, rfl, h⟩

theorem get_run : (get : Run H W (Machine H W)).run m = .ok m m := rfl

/-- What is no fault is not raised. -/
theorem orFail_run {r : Except Fault α} {a : α} (h : r = .ok a) :
    (orFail r : Run H W α).run m = .ok a m := by
  rw [h]
  rfl

/-- Nothing is caught of a run that ends well. -/
theorem protect_ok {act : Run H W α} {a : α} (h : act.run m = .ok a m') :
    (protect act).run m = .ok (.ok a) m' := by
  change EStateM.tryCatch (EStateM.map Except.ok act) _ m = _
  have hact : act m = .ok a m' := h
  simp only [EStateM.tryCatch, EStateM.map, hact]

/-- A run for the host that ends well is the run itself. -/
theorem guarded_ok {act : Run H W α} {a : α} (invoke : Invoke H W) (h : act.run m = .ok a m') :
    (guarded invoke act).run m = .ok (.ok a) m' := by
  rw [guarded, bind_ok (protect_ok h)]
  rfl

/-- What is caught for the host is the error of the run. -/
theorem protect_raised {act : Run H W α} {e : Value} {m₁ : Machine H W}
    (h : act.run m = .error (.raised e) m₁) :
    (protect act).run m = .ok (.error e) { m₁ with frames := m.frames } := by
  change EStateM.tryCatch (EStateM.map Except.ok act) _ m = _
  have hact : act m = .error (.raised e) m₁ := h
  simp only [EStateM.tryCatch, EStateM.map, hact]
  rfl

/-- A run that is given up is given up for the host too. -/
theorem protect_exhausted {act : Run H W α} {m₁ : Machine H W}
    (h : act.run m = .error .exhausted m₁) : (protect act).run m = .error .exhausted m₁ := by
  change EStateM.tryCatch (EStateM.map Except.ok act) _ m = _
  have hact : act m = .error .exhausted m₁ := h
  simp only [EStateM.tryCatch, EStateM.map, hact]
  rfl

/-- What the host makes of a run depends on how the run ends and on the frames around it, and on nothing
else. -/
theorem guarded_congr {act act' : Run H W α} {m₁ : Machine H W} (invoke : Invoke H W)
    (h : act.run m = act'.run m₁) (hframes : m₁.frames = m.frames) :
    (guarded invoke act).run m = (guarded invoke act').run m₁ := by
  cases hact' : act'.run m₁ with
  | ok a m₂ => rw [guarded_ok invoke hact', guarded_ok invoke (h.trans hact')]
  | error stop m₂ =>
    have hact := h.trans hact'
    rw [guarded, guarded]
    cases stop with
    | raised e => rw [bind_ok (protect_raised hact'), bind_ok (protect_raised hact), hframes]
    | exhausted => rw [bind_error (protect_exhausted hact'), bind_error (protect_exhausted hact)]

/-- What is caught is no longer raised. -/
theorem exhausted_of_protect {act : Run H W α} {stop : Stop} {m₁ : Machine H W}
    (h : (protect act).run m = .error stop m₁) : stop = .exhausted := by
  cases hact : act.run m with
  | ok a m₂ =>
    rw [protect_ok hact] at h
    cases h
  | error stop m₂ =>
    cases stop with
    | raised e =>
      rw [protect_raised hact] at h
      cases h
    | exhausted =>
      rw [protect_exhausted hact] at h
      cases h
      rfl

/-- The host makes a fault of every error, unless that is given up. -/
theorem exhausted_of_faultOf {invoke : Invoke H W} {n : Nat} {e : Value} {stop : Stop}
    {m₁ : Machine H W} (h : (faultOf invoke n e).run m = .error stop m₁) : stop = .exhausted := by
  induction n generalizing e m with
  | zero => cases e <;> cases h
  | succ n ih =>
    by_cases hfault : ∃ id, e = .fault id
    · obtain ⟨id, rfl⟩ := hfault
      cases h
    · rw [faultOf, EStateM.run_bind] at h
      case x_2 => exact fun id heq => hfault ⟨id, heq⟩
      split at h
      case h_1 r m₂ hprotect =>
        cases r with
        | ok s => cases h
        | error e => exact ih h
      case h_2 hprotect =>
        cases h
        exact exhausted_of_protect hprotect

/-- A run for the host raises nothing. -/
theorem exhausted_of_guarded {invoke : Invoke H W} {act : Run H W α} {stop : Stop} {m₁ : Machine H W}
    (h : (guarded invoke act).run m = .error stop m₁) : stop = .exhausted := by
  rw [guarded, EStateM.run_bind] at h
  split at h
  case h_1 r m₂ hprotect =>
    cases r with
    | ok a => cases h
    | error e =>
      rw [EStateM.run_bind] at h
      split at h
      case h_1 => cases h
      case h_2 hfault =>
        cases h
        exact exhausted_of_faultOf hfault
  case h_2 hprotect =>
    cases h
    exact exhausted_of_protect hprotect

/-- What ends well for the host has ended well. -/
theorem run_of_guarded {invoke : Invoke H W} {act : Run H W α} {a : α}
    (h : (guarded invoke act).run m = .ok (.ok a) m') : act.run m = .ok a m' := by
  cases hact : act.run m with
  | ok b m₁ =>
    rw [guarded_ok invoke hact] at h
    cases h
    rfl
  | error stop m₁ =>
    rw [guarded] at h
    cases stop with
    | exhausted =>
      rw [bind_error (protect_exhausted hact)] at h
      cases h
    | raised e =>
      -- the host has made a fault of the error
      rw [bind_ok (protect_raised hact)] at h
      obtain ⟨fault, m₂, -, h⟩ := exists_of_bind h
      cases h

/-- A run for the host that ends well goes on as the run itself. -/
theorem orFail_guarded_ok {act : Run H W α} {a : α} (invoke : Invoke H W) (h : act.run m = .ok a m') :
    (do orFail (← guarded invoke act) : Run H W α).run m = .ok a m' :=
  bind_ok (guarded_ok invoke h)

/-- An error of the host that has gone through a run is what the host gets. -/
theorem guarded_fault {act : Run H W α} {m₁ : Machine H W} {id : Nat}
    (h : act.run m = .error (.raised (.fault id)) m₁)
    (invoke : Invoke H W) : (guarded invoke act).run m =
      .ok (.error (m₁.faults.getD id default)) { m₁ with frames := m.frames } := by
  rw [guarded, bind_ok (protect_raised h)]
  rfl

theorem table_run (id : Nat) : (table id : Run H W Table).run m = .ok (m.tableAt id) m := rfl

theorem modifyTable_run (id : Nat) (f : Table → Table) :
    (modifyTable id f : Run H W Unit).run m = .ok () (m.setTable id (f (m.tableAt id))) := by
  have hmodify : m.tables.modify id f = m.tables.setIfInBounds id (f (m.tables.getD id {})) := by
    refine Array.ext (by simp) fun i hi _ => ?_
    have hlt : i < m.tables.size := by simpa using hi
    rw [Array.getElem_modify (by simpa using hi), Array.getElem_setIfInBounds (by simpa using hi)]
    split
    case isTrue heq => simp [heq, hlt]
    case isFalse => rfl
  change EStateM.Result.ok () { m with tables := m.tables.modify id f } = _
  rw [hmodify]
  rfl

theorem rawGet_run (id : Nat) (key : String) :
    (rawGet id (.ofString key) : Run H W Value).run m = .ok ((m.tableAt id).getText key) m := by
  rw [rawGet, bind_ok (table_run id), bind_ok (modifyTable_run id _), Table.touch_ofString,
    Machine.setTable_tableAt]
  rfl

/-- A metatable that is not there has no fields. -/
theorem metafield_run {id : Nat} (h : (m.tableAt id).metatable = none) (field : String) :
    (metafield (.table id) field : Run H W Value).run m = .ok .nil m := by
  have hmetatable : (metatable? (.table id) : Run H W _).run m = .ok none m := by
    rw [metatable?, bind_ok (table_run id), h]
    rfl
  rw [metafield, bind_ok hmetatable]
  rfl

/-- The host gets a field of a table without a metatable. -/
theorem hostField_run {id : Nat} (h : (m.tableAt id).metatable = none) (invoke : Invoke H W)
    (key : String) : (hostField invoke id key).run m = .ok ((m.tableAt id).getText key) m := by
  refine orFail_guarded_ok invoke ?_
  rw [index, show chainLimit = 1999 + 1 from rfl, indexFrom, bind_ok (rawGet_run id key)]
  dsimp only
  cases hnil : ((m.tableAt id).getText key).isNil
  · rfl
  · rw [Value.isNil_iff.mp hnil]
    exact bind_ok (metafield_run h _)

/-- The host sets a field of a table without a metatable. -/
theorem setHostField_run {id : Nat} (h : (m.tableAt id).metatable = none) (invoke : Invoke H W)
    (key : String) (v : Value) :
    (setHostField invoke id key v).run m = .ok () (m.setTable id ((m.tableAt id).setText key v)) := by
  refine orFail_guarded_ok invoke ?_
  have hset : (rawSet id (.ofString key) v : Run H W Unit).run m =
      .ok () (m.setTable id ((m.tableAt id).setText key v)) := modifyTable_run id _
  have hpresent : ((fun v => !v.isNil) <$> rawGet id (.ofString key) : Run H W Bool).run m =
      .ok (!((m.tableAt id).getText key).isNil) m := by
    rw [map_eq_pure_bind, bind_ok (rawGet_run id key)]
    rfl
  rw [setIndex, show chainLimit = 1999 + 1 from rfl, setIndexFrom, bind_ok hpresent]
  cases hnil : ((m.tableAt id).getText key).isNil
  · exact hset
  · exact (bind_ok (metafield_run h _)).trans hset

end Run
end Sandbox.Script
