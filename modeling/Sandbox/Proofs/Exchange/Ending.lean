import Sandbox.Proofs.Exchange.Stable

/-!
# Reading always ends

While tables are read, they are only measured. So as long as the length functions of metatables return
and change no table, every exchange that reads a table ends, with a value or with an error that one of
its parts has. `Exchange.Settles` says so of an exchange, with what holds of the value and of the error.
-/

namespace Sandbox

open Script Script.Machine

variable {H W : Type} {α β : Type} {invoke : Invoke H W} {m₀ m m' : Machine H W} {id : Nat}

namespace Script.Machine

/-- What gives the text of a text, or nil. -/
def textEvent (m : Machine H W) : Value :=
  (m.textMetatable.map fun id => (m.tableAt id).getText "__tostring").getD .nil

/-- The length functions of tables that are called while tables are measured return. What they return is
an integer, or else nothing is in the way of the error text that says that it is not. -/
def LengthsAnswer (invoke : Invoke H W) (m : Machine H W) : Prop :=
  ∀ (m' : Machine H W) (id : Nat), Measured invoke m m' → m'.lengthEvent id ≠ .nil →
    ∃ values m'', invoke (some ⟨"metamethod", "len"⟩) (m'.lengthEvent id) [.table id] m' =
        .ok values m'' ∧
      (Numeral.integer? (values.headD .nil) = none → m''.textEvent = .nil)

/-- Calls that answer with an integer return. -/
theorem lengthsAnswer_pure {answers : List Value} (h : Numeral.integer? (answers.headD .nil) ≠ none)
    (m : Machine H W) : m.LengthsAnswer fun _ _ _ => pure answers :=
  fun m' _ _ _ => ⟨answers, m', rfl, fun hnone => absurd hnone h⟩

/-- Where length functions change no table, every table that is there keeps what it holds. -/
theorem Measured.keeps (hkeep : m₀.LengthsKeep invoke) (h : Measured invoke m₀ m) : m₀.Keeps m := by
  induction h with
  | start => exact .refl m₀
  | border id h ih => exact ih.trans (keeps_measure _ id)
  | call h hevent hcall ih => exact ih.trans (hkeep _ _ _ _ h hevent hcall).1

theorem Measured.addressable (hkeep : m₀.LengthsKeep invoke) (haddr : m₀.Addressable)
    (h : Measured invoke m₀ m) : m.Addressable := by
  induction h with
  | start => exact haddr
  | border id h ih => exact ih.measure id
  | call h hevent hcall ih => exact (hkeep _ _ _ _ h hevent hcall).2 ih

/-- A table that was there before has the entries that it had. -/
theorem Measured.entries_eq (hkeep : m₀.LengthsKeep invoke) (h : Measured invoke m₀ m)
    (hthere : id < m₀.tables.size) : (m.tableAt id).entries = (m₀.tableAt id).entries := by
  obtain ⟨t, hget', hentries⟩ := Exchange.entries_of_keeps (h.keeps hkeep) (getElem?_of_lt hthere)
  rw [tableAt_of_getElem? hget', hentries]

end Script.Machine

namespace Exchange

/-! ## Measuring ends -/

/-- An error text whose making nothing is in the way of becomes a fault of the host. -/
theorem faultOf_text (h : m.textEvent = .nil) (s : ByteArray) (n : Nat) :
    (Run.faultOf invoke (n + 1) (.text s)).run m = .ok (.runtime (Run.untilNull s).toTextLossy) m := by
  have hfield : (Run.metafield (.text s) "__tostring" : Run H W Value).run m = .ok .nil m := by
    have hmetatable : (Run.metatable? (.text s) : Run H W (Option Nat)).run m =
        .ok m.textMetatable m := rfl
    rw [Run.metafield, Run.bind_ok hmetatable, ← h, textEvent]
    cases m.textMetatable <;> rfl
  have htext : (Run.textOf invoke (.text s)).run m = .ok s m := by
    unfold Run.textOf
    exact Run.bind_ok hfield
  exact Run.bind_ok (Run.protect_ok htext)

/-- What ends well, or with an error text whose making nothing is in the way of, ends for the host. -/
theorem exists_guarded {act : Run H W α}
    (h : (∃ a m', act.run m = .ok a m') ∨
      ∃ s m', act.run m = .error (.raised (.text s)) m' ∧ m'.textEvent = .nil) :
    ∃ r m', (Run.guarded invoke act).run m = .ok r m' := by
  rcases h with ⟨a, m', hact⟩ | ⟨s, m', hact, htext⟩
  · exact ⟨_, m', Run.guarded_ok invoke hact⟩
  · refine ⟨.error (.runtime (Run.untilNull s).toTextLossy), { m' with frames := m.frames }, ?_⟩
    rw [Run.guarded, Run.bind_ok (Run.protect_raised hact)]
    exact Run.bind_ok (faultOf_text (m := { m' with frames := m.frames }) htext s 9)

/-- Whatever a table is asked for its length ends. -/
theorem exists_length (hanswer : m₀.LengthsAnswer invoke) (hm : Measured invoke m₀ m) (id : Nat) :
    ∃ v m', (Run.length invoke (.table id)).run m = .ok v m' ∧
      (Numeral.integer? v = none → m'.textEvent = .nil) := by
  unfold Run.length
  rw [Run.bind_ok (metafield_len m id)]
  by_cases hevent : m.lengthEvent id = .nil
  · rw [hevent]
    exact ⟨_, m.measure id, rfl, nofun⟩
  · obtain ⟨values, m', hcall, htext⟩ := hanswer m id hm hevent
    have hname : ("__len".drop 2).toString = "len" := by decide +kernel
    have hrun : (Run.callEvent invoke "__len" (m.lengthEvent id) [.table id]).run m =
        .ok (values.headD .nil) m' := by
      rw [Run.callEvent, hname]
      exact Run.bind_ok hcall
    refine ⟨values.headD .nil, m', ?_, htext⟩
    generalize m.lengthEvent id = event at hrun hevent
    cases event with
    | nil => exact absurd rfl hevent
    | _ => exact hrun

theorem Yields.exists_bind {β : Type} {act : Exchanging H W α} {next : α → Exchanging H W β} {a : α}
    (h : Yields act m (.ok a) m₁) (hnext : ∃ r m', Yields (next a) m₁ r m') :
    ∃ r m', Yields (act >>= next) m r m' := by
  obtain ⟨r, m', hnext⟩ := hnext
  exact ⟨r, m', h.bind hnext⟩

theorem exists_bind_guarded {β : Type} {act : Run H W α} {next : Except Fault α → Exchanging H W β}
    (h : (∃ a m', act.run m = .ok a m') ∨
      ∃ s m', act.run m = .error (.raised (.text s)) m' ∧ m'.textEvent = .nil)
    (hnext : ∀ r m', ∃ r' m'', Yields (next r) m' r' m'') :
    ∃ r m', Yields (liftM (Run.guarded invoke act) >>= next) m r m' := by
  obtain ⟨r, m', hrun⟩ := exists_guarded h
  obtain ⟨r', m'', hnext⟩ := hnext r m'
  exact ⟨r', m'', (Yields.lift hrun).bind hnext⟩

/-- Every table can be measured, or the host gets an error. -/
theorem exists_lengthOf (hanswer : m₀.LengthsAnswer invoke) (hm : Measured invoke m₀ m) (id : Nat) :
    ∃ r m', Yields (lengthOf invoke id) m r m' := by
  have htable : Yields (liftM (Run.table id : Run H W Table) : Exchanging H W Table) m
      (.ok (m.tableAt id)) m := .lift rfl
  refine htable.exists_bind (exists_bind_guarded ?_ fun measured m' => ?_)
  · split
    · exact .inl ⟨_, m.measure id, rfl⟩
    · obtain ⟨v, m', hlength, htext⟩ := exists_length hanswer hm id
      rw [Run.bind_ok hlength]
      cases hinteger : Numeral.integer? v with
      | some n => exact .inl ⟨n.toInt, m', rfl⟩
      | none => exact .inr ⟨_, m', rfl, htext hinteger⟩
  · cases measured with
    | ok n => exact ⟨_, m', .pure n m'⟩
    | error fault => exact ⟨_, m', .throw _ m'⟩

/-! ## Exchanges that end -/

/-- On every machine to which measuring has led the exchange ends. With a result it has only measured
tables, and the result has a property; otherwise the error has one. -/
def Settles (invoke : Invoke H W) (m₀ : Machine H W) (act : Exchanging H W α) (P : α → Prop)
    (Q : Error → Prop) : Prop :=
  ∀ m, Measured invoke m₀ m → ∃ r m', Yields act m r m' ∧
    (∀ a, r = .ok a → Measured invoke m₀ m' ∧ P a) ∧ ∀ e, r = .error e → Q e

section Laws

variable {P P' : α → Prop} {Q Q' : Error → Prop} {act : Exchanging H W α}

theorem Settles.ok (h : ∀ m, Measured invoke m₀ m → ∃ a m', Yields act m (.ok a) m' ∧
    Measured invoke m₀ m' ∧ P a) : Settles invoke m₀ act P Q := by
  intro m hm
  obtain ⟨a, m', hact, hm', ha⟩ := h m hm
  refine ⟨.ok a, m', hact, fun b hb => ?_, nofun⟩
  obtain rfl := Except.ok.inj hb
  exact ⟨hm', ha⟩

theorem Settles.pure {a : α} (ha : P a) : Settles invoke m₀ (Pure.pure a) P Q :=
  .ok fun m hm => ⟨a, m, .pure a m, hm, ha⟩

theorem Settles.throw {e : Error} (he : Q e) :
    Settles invoke m₀ (MonadExcept.throw e : Exchanging H W α) P Q :=
  fun m _ => ⟨.error e, m, .throw e m, nofun, fun _ h => Except.error.inj h ▸ he⟩

theorem Settles.liftExcept {r : Except Error α} (hok : ∀ a, r = .ok a → P a)
    (herror : ∀ e, r = .error e → Q e) : Settles invoke m₀ (pullTable.liftExcept r) P Q :=
  fun m hm => ⟨r, m, .liftExcept r m, fun a ha => ⟨hm, hok a ha⟩, herror⟩

theorem Settles.mono (h : Settles invoke m₀ act P Q) (hP : ∀ a, P a → P' a) (hQ : ∀ e, Q e → Q' e) :
    Settles invoke m₀ act P' Q' := by
  intro m hm
  obtain ⟨r, m', hact, hok, herror⟩ := h m hm
  exact ⟨r, m', hact, fun a ha => ⟨(hok a ha).1, hP a (hok a ha).2⟩, fun e he => hQ e (herror e he)⟩

theorem Settles.bind {next : α → Exchanging H W β} {R : β → Prop} (h : Settles invoke m₀ act P Q)
    (hnext : ∀ a, P a → Settles invoke m₀ (next a) R Q) : Settles invoke m₀ (act >>= next) R Q := by
  intro m hm
  obtain ⟨r, m₁, hact, hok, herror⟩ := h m hm
  cases r with
  | error e =>
    exact ⟨.error e, m₁, hact.bind_error, nofun, fun e' he => herror e' (by cases he; rfl)⟩
  | ok a =>
    obtain ⟨hm₁, ha⟩ := hok a rfl
    obtain ⟨r, m₂, hrest, hr⟩ := hnext a ha m₁ hm₁
    exact ⟨r, m₂, hact.bind hrest, hr⟩

theorem Settles.mapM {f : α → Exchanging H W β} {R : α → β → Prop} {as : List α}
    (hstep : ∀ a ∈ as, Settles invoke m₀ (f a) (R a) Q) :
    Settles invoke m₀ (as.mapM f) (List.Forall₂ R as) Q := by
  induction as with
  | nil => exact .pure .nil
  | cons a as ih =>
    rw [List.mapM_cons]
    refine (hstep a List.mem_cons_self).bind fun b hb => ?_
    refine (ih fun a ha => hstep a (List.mem_cons_of_mem _ ha)).bind fun bs hbs => ?_
    exact .pure (.cons hb hbs)

end Laws

/-! ## Reading one table -/

/-- A length that a table has had while tables were measured, or why it could not be measured. -/
def Measures (invoke : Invoke H W) (m₀ : Machine H W) (id : Nat) (r : Except Error Int) : Prop :=
  ∃ m m', Measured invoke m₀ m ∧ Yields (lengthOf invoke id) m r m'

theorem settles_lengthOf (haddr : m₀.Addressable) (hkeep : m₀.LengthsKeep invoke)
    (hanswer : m₀.LengthsAnswer invoke) (id : Nat) :
    Settles invoke m₀ (lengthOf invoke id) (fun length => Measures invoke m₀ id (.ok length))
      fun e => Measures invoke m₀ id (.error e) := by
  intro m hm
  obtain ⟨r, m', hlength⟩ := exists_lengthOf hanswer hm id
  refine ⟨r, m', hlength, fun length hr => ?_, fun e hr => ?_⟩
  · subst hr
    exact ⟨(lengthOf_spec hkeep hm (hm.addressable hkeep haddr) hlength).2.1, m, m', hm, hlength⟩
  · subst hr
    exact ⟨m, m', hm, hlength⟩

/-- A table is looked at. -/
theorem settles_table {Q : Error → Prop} (hkeep : m₀.LengthsKeep invoke) (id : Nat) :
    Settles invoke m₀ (liftM (Run.table id : Run H W Table))
      (fun t => id < m₀.tables.size → t.entries = (m₀.tableAt id).entries) Q :=
  .ok fun m hm => ⟨m.tableAt id, m, .lift rfl, hm, fun hthere => hm.entries_eq hkeep hthere⟩

section Entries

variable {P : Datum → Prop} {Q : Error → Prop} {depth : Nat} {length : Int} {entry : Value × Value}

/-- Reading an entry of a list ends if reading its value does. -/
theorem Settles.pullItem (hindex : ∀ e, indexOf entry.1 = .error e → Q e)
    (houtside : ∀ i, indexOf entry.1 = .ok i → ¬(1 ≤ i ∧ i ≤ length) → Q (.indexOutside i length))
    (hinner : Settles invoke m₀ (pullInner invoke depth entry.2) P Q) :
    Settles invoke m₀ (pullItem invoke depth length entry)
      (fun item => indexOf entry.1 = .ok item.1 ∧ P item.2) Q := by
  rw [Exchange.pullItem]
  refine (Settles.liftExcept (P := fun i => indexOf entry.1 = .ok i) (fun i hi => hi) hindex).bind
    fun i hi => ?_
  split
  · rename_i hout
    exact .throw (houtside i hi (by simp at hout; omega))
  · exact hinner.bind fun d hd => .pure ⟨hi, hd⟩

/-- Reading an entry of a record ends if reading its value does. -/
theorem Settles.pullField (hkey : ∀ e, keyText entry.1 = .error e → Q e)
    (hinner : Settles invoke m₀ (pullInner invoke depth entry.2) P Q) :
    Settles invoke m₀ (pullField invoke depth entry) (fun field => P field.2) Q := by
  rw [Exchange.pullField]
  refine (Settles.liftExcept (P := fun _ => True) (fun _ _ => trivial) hkey).bind fun key _ => ?_
  exact hinner.bind fun d hd => .pure hd

theorem settles_makeList {items : List (Int × Datum)} {P : Datum → Prop}
    (hlist : P (.list (listItems length.toNat items)))
    (hlong : ∀ m, Measured invoke m₀ m → held m id items < length →
      Q (.indexOutside length (held m id items))) :
    Settles invoke m₀ (makeList id length items) P Q := by
  intro m hm
  refine ⟨_, _, yields_makeList m id length items, fun d hd => ?_, fun e he => ?_⟩
  · split at hd
    · exact ⟨hm.border id, Except.ok.inj hd ▸ hlist⟩
    · cases hd
  · split at he
    · cases he
    · exact Except.error.inj he ▸ hlong m hm (by omega)

end Entries

end Exchange
end Sandbox
