import Sandbox.Chunk.Compile
import Sandbox.Proofs.Custody.Clear
import Sandbox.Script.Machine

/-!
# Runs that keep the loader in custody

A machine is `Guarded` if scripts get at the function that compiles in any mode through one other function
only, which names the mode itself. Two runs are `Alike` if they do the same on every guarded machine and
leave it guarded, with a result that does not give the loader away. Both sides of such a pair go the same
way; they may differ in what they call, which is where two engines may differ.
-/

namespace Sandbox.Script

variable {H W : Type} {α β σ : Type} {c : Custody}

/-! ## Guarded machines -/

/-- A function of three and more parameters that calls the variable around it with the first two of them,
the mode for texts and those that are more. -/
def Function.handsOn : Function → Bool
  | .mk _ 3 true [.result [.call _ (.variable callee)
      [.variable chunk, .variable name, .text mode, .variadic]]] =>
    callee.index = 3 && chunk.index = 2 && name.index = 1 && mode = Chunk.textMode.toUTF8
  | _ => false

theorem Function.handsOn_eq {f : Function} (h : f.handsOn = true) :
    ∃ line callLine callee chunk name, callee.index = 3 ∧ chunk.index = 2 ∧ name.index = 1 ∧
      f = .mk line 3 true [.result [.call callLine (.variable callee)
        [.variable chunk, .variable name, .text Chunk.textMode.toUTF8, .variadic]]] := by
  unfold handsOn at h
  split at h
  case h_1 line callLine callee chunk name mode =>
    simp only [Bool.and_eq_true, decide_eq_true_eq] at h
    obtain ⟨⟨⟨hcallee, hchunk⟩, hname⟩, rfl⟩ := h
    exact ⟨line, callLine, callee, chunk, name, hcallee, hchunk, hname, rfl⟩
  case h_2 => cases h

/-- A function that is not the loader and does not see the variable that holds it. -/
instance : Carries (Callable H) where
  clear c
    | .closure _ _ locals => c.cell ∉ locals
    | .routine (.base .load) => False
    | .routine (.text (.matchStep _ _ state)) => c.cell < state
    | _ => True

/-- The loader is the value of one variable, which one function sees, and is nowhere else. -/
structure Guarded (c : Custody) (m : Machine H W) : Prop where
  loader : m.functions[c.loader]? = some (.routine (.base .load))
  cell : m.locals[c.cell]? = some (.function c.loader)
  /-- The variable is not the one that stands for those that are missing. -/
  cell_pos : 0 < c.cell
  door : ∃ chunk f, m.functions[c.door]? = some (.closure chunk f [c.cell, 0]) ∧ f.handsOn = true
  tables : Clear c m.tables
  locals : ∀ id v, id ≠ c.cell → m.locals[id]? = some v → Clear c v
  functions : ∀ id f, id ≠ c.loader → id ≠ c.door → m.functions[id]? = some f → Clear c f

instance : Carries (Machine H W) := ⟨Guarded⟩

instance : Carries Stop where
  clear c
    | .raised e => Clear c e
    | .exhausted => True

@[grind .] theorem clear_host (h : H) : Clear c (Callable.host h) := trivial

@[grind .] theorem clear_character (r : CharacterRoutine) :
    Clear c (Callable.routine (.character r) : Callable H) := trivial

@[grind =] theorem clear_closure {chunk : String} {f : Function} {locals : List Nat} :
    Clear c (Callable.closure chunk f locals : Callable H) ↔ c.cell ∉ locals := .rfl

@[grind =] theorem clear_matchStep {text pattern : ByteArray} {state : Nat} :
    Clear c (Callable.routine (.text (.matchStep text pattern state)) : Callable H) ↔ c.cell < state := .rfl

@[grind =] theorem clear_machine {m : Machine H W} : Clear c m ↔ Guarded c m := .rfl

@[grind =] theorem clear_raised {e : Value} : Clear c (Stop.raised e) ↔ Clear c e := .rfl

@[grind .] theorem clear_exhausted : Clear c Stop.exhausted := trivial

namespace Guarded

variable {m : Machine H W}

/-- What is beside tables, functions and variables does not matter. -/
theorem congr {m' : Machine H W} (h : Guarded c m) (htables : m'.tables = m.tables)
    (hfunctions : m'.functions = m.functions) (hlocals : m'.locals = m.locals) : Guarded c m' where
  loader := hfunctions ▸ h.loader
  cell := hlocals ▸ h.cell
  cell_pos := h.cell_pos
  door := hfunctions ▸ h.door
  tables := htables ▸ h.tables
  locals := hlocals ▸ h.locals
  functions := hfunctions ▸ h.functions

attribute [grind →] Guarded.tables

theorem table (h : Guarded c m) (id : Nat) : Clear c (m.tables.getD id {}) :=
  clear_getD_array h.tables Table.clear_empty id

theorem loader_lt (h : Guarded c m) : c.loader < m.functions.size :=
  (Array.getElem?_eq_some_iff.mp h.loader).1

theorem cell_lt (h : Guarded c m) : c.cell < m.locals.size :=
  (Array.getElem?_eq_some_iff.mp h.cell).1

theorem door_lt (h : Guarded c m) : c.door < m.functions.size := by
  obtain ⟨chunk, f, hdoor, -⟩ := h.door
  exact (Array.getElem?_eq_some_iff.mp hdoor).1

theorem setTables (h : Guarded c m) {tables : Array Table} (htables : Clear c tables) :
    Guarded c { m with tables } :=
  ⟨h.loader, h.cell, h.cell_pos, h.door, htables, h.locals, h.functions⟩

theorem setLocals (h : Guarded c m) {locals : Array Value}
    (hcell : locals[c.cell]? = some (.function c.loader))
    (hlocals : ∀ id v, id ≠ c.cell → locals[id]? = some v → Clear c v) :
    Guarded c { m with locals } :=
  ⟨h.loader, hcell, h.cell_pos, h.door, h.tables, hlocals, h.functions⟩

theorem pushLocal (h : Guarded c m) {v : Value} (hv : Clear c v) :
    Guarded c { m with locals := m.locals.push v } := by
  have hlt := h.cell_lt
  refine h.setLocals ?_ fun id w hid hw => ?_
  · rw [Array.getElem?_push, if_neg (by omega), h.cell]
  · rw [Array.getElem?_push] at hw
    split at hw
    · exact Option.some.inj hw ▸ hv
    · exact h.locals id w hid hw

theorem setLocal (h : Guarded c m) {id : Nat} (hid : id ≠ c.cell) {v : Value} (hv : Clear c v) :
    Guarded c { m with locals := m.locals.setIfInBounds id v } := by
  refine h.setLocals ?_ fun other w hother hw => ?_
  · rw [Array.getElem?_setIfInBounds_ne hid, h.cell]
  · rw [Array.getElem?_setIfInBounds] at hw
    split at hw
    · split at hw
      · exact Option.some.inj hw ▸ hv
      · cases hw
    · exact h.locals other w hother hw

theorem pushFunction (h : Guarded c m) {f : Callable H} (hf : Clear c f) :
    Guarded c { m with functions := m.functions.push f } := by
  obtain ⟨chunk, door, hdoor, hhands⟩ := h.door
  have hold {id : Nat} (hid : id < m.functions.size) :
      (m.functions.push f)[id]? = m.functions[id]? := by
    rw [Array.getElem?_push, if_neg (by omega)]
  refine ⟨(hold h.loader_lt).trans h.loader, h.cell, h.cell_pos,
    ⟨chunk, door, (hold h.door_lt).trans hdoor, hhands⟩, h.tables, h.locals,
    fun id g hloader hne hg => ?_⟩
  dsimp only at hg
  rw [Array.getElem?_push] at hg
  split at hg
  · exact Option.some.inj hg ▸ hf
  · exact h.functions id g hloader hne hg

end Guarded

/-! ## Alike runs -/

/-- An outcome leaves the machine guarded and does not give the loader away. -/
def Kept (c : Custody) [Carries α] : EStateM.Result Stop (Machine H W) α → Prop
  | .ok a m => Clear c a ∧ Guarded c m
  | .error stop m => Clear c stop ∧ Guarded c m

/-- Two runs do the same on guarded machines and keep the loader in custody. -/
def Alike (c : Custody) [Carries α] (act act' : Run H W α) : Prop :=
  ∀ m, Guarded c m → act.run m = act'.run m ∧ Kept c (act.run m)

/-- The arguments with which the loader is called in place of the given ones. -/
def textArguments (arguments : List Value) : List Value :=
  arguments.getD 0 .nil :: arguments.getD 1 .nil :: .ofString Chunk.textMode :: arguments.drop 3

/-- Two ways of calling are alike for all that scripts can call, and for the loader with the mode for
texts. -/
structure CallsAlike (c : Custody) (invoke invoke' : Invoke H W) : Prop where
  clear : ∀ site f arguments, Clear c f → Clear c arguments →
    Alike c (invoke site f arguments) (invoke' site f arguments)
  loader : ∀ site arguments, Clear c arguments →
    Alike c (invoke site (.function c.loader) (textArguments arguments))
      (invoke' site (.function c.loader) (textArguments arguments))

attribute [grind cases] CallsAlike

namespace Alike

variable [Carries α] [Carries β] [Carries σ]

theorem of_ok {act act' : Run H W α} (h : Alike c act act') {m m' : Machine H W} {a : α}
    (hm : Guarded c m) (hrun : act.run m = .ok a m') : Clear c a ∧ Guarded c m' := by
  have hkept := (h m hm).2
  rwa [hrun] at hkept

theorem of_error {act act' : Run H W α} (h : Alike c act act') {m m' : Machine H W} {stop : Stop}
    (hm : Guarded c m) (hrun : act.run m = .error stop m') : Clear c stop ∧ Guarded c m' := by
  have hkept := (h m hm).2
  rwa [hrun] at hkept

@[grind .] theorem pure {a : α} (ha : Clear c a) : Alike c (pure a : Run H W α) (pure a) :=
  fun _ hm => ⟨rfl, ha, hm⟩

@[grind .] theorem get : Alike c (get : Run H W (Machine H W)) get := fun _ hm => ⟨rfl, hm, hm⟩

@[grind .] theorem throw {stop : Stop} (h : Clear c stop) :
    Alike c (throw stop : Run H W α) (throw stop) := fun _ hm => ⟨rfl, h, hm⟩

@[grind .] theorem bind {act act' : Run H W α} {next next' : α → Run H W β} (hact : Alike c act act')
    (hnext : ∀ a, Clear c a → Alike c (next a) (next' a)) :
    Alike c (act >>= next) (act' >>= next') := by
  intro m hm
  rw [EStateM.run_bind, EStateM.run_bind, ← (hact m hm).1]
  cases hrun : act.run m with
  | ok a m' =>
    obtain ⟨ha, hm'⟩ := hact.of_ok hm hrun
    exact hnext a ha m' hm'
  | error stop m' => exact ⟨rfl, hact.of_error hm hrun⟩

@[grind .] theorem map {act act' : Run H W α} {f : α → β} (hact : Alike c act act')
    (hf : ∀ a, Clear c a → Clear c (f a)) : Alike c (f <$> act) (f <$> act') := by
  rw [map_eq_pure_bind, map_eq_pure_bind]
  exact .bind hact fun a ha => .pure (hf a ha)

@[grind .] theorem discard {act act' : Run H W α} (hact : Alike c act act') :
    Alike c (discard act) (discard act') := .map hact fun _ _ => clear_of_inert _

@[grind .] theorem tryCatch {act act' : Run H W α} {handle handle' : Stop → Run H W α}
    (hact : Alike c act act') (hhandle : ∀ stop, Clear c stop → Alike c (handle stop) (handle' stop)) :
    Alike c (tryCatch act handle) (tryCatch act' handle') := by
  intro m hm
  have hrun' := (hact m hm).1
  change EStateM.tryCatch act handle m = EStateM.tryCatch act' handle' m ∧
    Kept c (EStateM.tryCatch act handle m)
  change act m = act' m at hrun'
  delta EStateM.tryCatch
  simp only [← hrun']
  cases hrun : act m with
  | ok a m' => exact ⟨rfl, hact.of_ok hm hrun⟩
  | error stop m' =>
    obtain ⟨hstop, hm'⟩ := hact.of_error hm hrun
    exact hhandle stop hstop m' hm'

theorem modify {f : Machine H W → Machine H W} (hf : ∀ m, Guarded c m → Guarded c (f m)) :
    Alike c (modify f : Run H W PUnit) (modify f) := fun m hm => ⟨rfl, clear_of_inert _, hf m hm⟩

theorem modifyGet {f : Machine H W → α × Machine H W}
    (hf : ∀ m, Guarded c m → Clear c (f m).1 ∧ Guarded c (f m).2) :
    Alike c (modifyGet f : Run H W α) (modifyGet f) := fun m hm => ⟨rfl, hf m hm⟩

/-- What follows may rely on the machine that is there. -/
theorem of_get {next next' : Machine H W → Run H W α}
    (hnext : ∀ m, Guarded c m → (next m).run m = (next' m).run m ∧ Kept c ((next m).run m)) :
    Alike c (MonadState.get >>= next) (MonadState.get >>= next') := hnext

/-! ### Lists -/

@[grind .] theorem mapM {f f' : α → Run H W β} {l : List α} (hl : Clear c l)
    (hf : ∀ a, Clear c a → Alike c (f a) (f' a)) : Alike c (l.mapM f) (l.mapM f') := by
  induction l with
  | nil => exact .pure clear_nil
  | cons a rest ih =>
    obtain ⟨ha, hrest⟩ := clear_cons.mp hl
    rw [List.mapM_cons, List.mapM_cons]
    exact .bind (hf a ha) fun b hb => .bind (ih hrest) fun bs hbs =>
      .pure (clear_cons.mpr ⟨hb, hbs⟩)

@[grind .] theorem forM {f f' : α → Run H W PUnit} {l : List α} (hl : Clear c l)
    (hf : ∀ a, Clear c a → Alike c (f a) (f' a)) : Alike c (l.forM f) (l.forM f') := by
  induction l with
  | nil => exact .pure (clear_of_inert _)
  | cons a rest ih =>
    obtain ⟨ha, hrest⟩ := clear_cons.mp hl
    exact .bind (hf a ha) fun _ _ => ih hrest

@[grind .] theorem foldlM {f f' : σ → α → Run H W σ} {s : σ} {l : List α} (hs : Clear c s)
    (hl : Clear c l) (hf : ∀ s a, Clear c s → Clear c a → Alike c (f s a) (f' s a)) :
    Alike c (l.foldlM f s) (l.foldlM f' s) := by
  induction l generalizing s with
  | nil => exact .pure hs
  | cons a rest ih =>
    obtain ⟨ha, hrest⟩ := clear_cons.mp hl
    exact .bind (hf s a hs ha) fun s hs => ih hs hrest

@[grind .] theorem anyM {f f' : α → Run H W Bool} {l : List α} (hl : Clear c l)
    (hf : ∀ a, Clear c a → Alike c (f a) (f' a)) : Alike c (l.anyM f) (l.anyM f') := by
  induction l with
  | nil => exact .pure (clear_of_inert _)
  | cons a rest ih =>
    obtain ⟨ha, hrest⟩ := clear_cons.mp hl
    rw [List.anyM, List.anyM]
    refine .bind (hf a ha) fun b _ => ?_
    cases b
    · exact ih hrest
    · exact .pure (clear_of_inert _)

/-! ### Loops -/

/-- A loop is alike as soon as its rounds are in all states that come up. -/
theorem repeatFrom_of {τ : Type} {step step' : τ → Run H W (τ ⊕ α)} (fits : τ → Prop)
    (hstep : ∀ s, fits s → ∀ m, Guarded c m → (step s).run m = (step' s).run m ∧
      match (step s).run m with
      | .ok (.inl s) m => fits s ∧ Guarded c m
      | .ok (.inr a) m => Clear c a ∧ Guarded c m
      | .error stop m => Clear c stop ∧ Guarded c m)
    (n : Nat) {s : τ} (hs : fits s) : Alike c (Run.repeatFrom step n s) (Run.repeatFrom step' n s) := by
  induction n generalizing s with
  | zero => exact .throw clear_exhausted
  | succ n ih =>
    intro m hm
    obtain ⟨heq, hkept⟩ := hstep s hs m hm
    simp only [Run.repeatFrom, EStateM.run_bind, ← heq]
    cases hrun : (step s).run m with
    | ok r m' =>
      rw [hrun] at hkept
      cases r with
      | inl s => exact ih hkept.1 m' hkept.2
      | inr a => exact ⟨rfl, hkept⟩
    | error stop m' =>
      rw [hrun] at hkept
      exact ⟨rfl, hkept⟩

@[grind .] theorem repeatFrom {step step' : σ → Run H W (σ ⊕ α)}
    (hstep : ∀ s, Clear c s → Alike c (step s) (step' s)) (n : Nat) {s : σ} (hs : Clear c s) :
    Alike c (Run.repeatFrom step n s) (Run.repeatFrom step' n s) := by
  refine repeatFrom_of (Clear c) (fun s hs m hm => ?_) n hs
  obtain ⟨heq, hkept⟩ := hstep s hs m hm
  refine ⟨heq, ?_⟩
  cases hrun : (step s).run m with
  | ok r m' =>
    rw [hrun] at hkept
    cases r with
    | inl s => exact ⟨clear_inl.mp hkept.1, hkept.2⟩
    | inr a => exact ⟨clear_inr.mp hkept.1, hkept.2⟩
  | error stop m' =>
    rw [hrun] at hkept
    exact hkept

end Alike

namespace Run

variable [Carries α]

/-! ## Objects -/

@[grind .] theorem raise_alike {error : Value} (h : Clear c error) :
    Alike c (raise error : Run H W α) (raise error) := .throw h

@[grind .] theorem table_alike (id : Nat) : Alike c (table id : Run H W Table) (table id) :=
  .bind .get fun _ hm => .pure (Guarded.table hm id)

@[grind .] theorem modifyTable_alike (id : Nat) {f : Table → Table}
    (hf : ∀ t, Clear c t → Clear c (f t)) :
    Alike c (modifyTable id f : Run H W Unit) (modifyTable id f) :=
  .modify fun _ hm => hm.setTables (clear_modify hm.tables id hf)

@[grind .] theorem newTable_alike {t : Table} (ht : Clear c t) :
    Alike c (newTable t : Run H W Nat) (newTable t) :=
  .modifyGet fun _ hm => ⟨clear_of_inert _, hm.setTables (clear_push hm.tables ht)⟩

@[grind .] theorem newFunction_alike {f : Callable H} (hf : Clear c f) :
    Alike c (newFunction f : Run H W Value) (newFunction f) := by
  refine .modifyGet fun m hm => ⟨fun heq => ?_, hm.pushFunction hf⟩
  have hlt := hm.loader_lt
  simp only [Value.function.injEq] at heq
  omega

/-- A new variable is none of those that are there. -/
@[grind .] theorem newVariable_alike {v : Value} (hv : Clear c v) {next next' : Nat → Run H W α}
    (hnext : ∀ id, c.cell < id → Alike c (next id) (next' id)) :
    Alike c (newVariable v >>= next) (newVariable v >>= next') :=
  fun m hm => hnext m.locals.size hm.cell_lt _ (hm.pushLocal hv)

@[grind .] theorem variableValue_alike {id : Nat} (hid : id ≠ c.cell) :
    Alike c (variableValue id : Run H W Value) (variableValue id) := by
  refine fun m hm => ⟨rfl, ?_, hm⟩
  rw [Array.getD_eq_getD_getElem?]
  cases hget : m.locals[id]? with
  | none => exact fun h => by cases h
  | some v => exact hm.locals id v hid hget

@[grind .] theorem setVariable_alike {id : Nat} (hid : id ≠ c.cell) {v : Value} (hv : Clear c v) :
    Alike c (setVariable id v : Run H W Unit) (setVariable id v) :=
  .modify fun _ hm => hm.setLocal hid hv

@[grind .] theorem newFault_alike (f : Fault) : Alike c (newFault f : Run H W Value) (newFault f) :=
  .modifyGet fun _ hm => ⟨fun h => (by cases h), hm.congr rfl rfl rfl⟩

@[grind .] theorem fail_alike (f : Fault) : Alike c (fail f : Run H W α) (fail f) :=
  .bind (newFault_alike f) fun _ he => raise_alike he

@[grind .] theorem rawGet_alike (id : Nat) (key : Value) :
    Alike c (rawGet id key : Run H W Value) (rawGet id key) := by
  grind [rawGet]

@[grind .] theorem rawField_alike (id : Nat) (key : String) :
    Alike c (rawField id key : Run H W Value) (rawField id key) := by
  grind [rawField]

@[grind .] theorem setField_alike (id : Nat) (key : String) {v : Value} (hv : Clear c v) :
    Alike c (setField id key v : Run H W Unit) (setField id key v) := by
  grind [setField]

/-! ## Frames -/

@[grind .] theorem inFrame_alike (frame : Frame) {act act' : Run H W α} (hact : Alike c act act') :
    Alike c (inFrame frame act) (inFrame frame act') :=
  .bind (.modify fun _ hm => hm.congr rfl rfl rfl) fun _ _ => .bind hact fun _ ha =>
    .bind (.modify fun _ hm => hm.congr rfl rfl rfl) fun _ _ => .pure ha

@[grind .] theorem protect_alike {act act' : Run H W α} (hact : Alike c act act') :
    Alike c (protect act) (protect act') := by
  refine .bind .get fun m _ => .tryCatch (.map hact fun a ha => clear_ok.mpr ha) fun stop hstop => ?_
  cases stop with
  | raised e =>
    exact .bind (.modify fun _ hm => hm.congr rfl rfl rfl) fun _ _ => .pure (clear_error.mpr hstop)
  | exhausted => exact .throw clear_exhausted

@[grind .] theorem atLine_alike (line : Nat) : Alike c (atLine line : Run H W Unit) (atLine line) := by
  refine .modify fun m hm => ?_
  split
  · exact hm.congr rfl rfl rfl
  · exact hm

@[grind .] theorem placeOf_alike (level : Nat) :
    Alike c (placeOf level : Run H W String) (placeOf level) := by
  refine .bind .get fun m _ => ?_
  split
  · exact .pure (clear_of_inert _)
  · exact .pure (clear_of_inert _)

@[grind .] theorem raiseAt_alike (level : Nat) (text : String) :
    Alike c (raiseAt level text : Run H W α) (raiseAt level text) :=
  .bind (placeOf_alike level) fun _ _ => raise_alike fun h => by cases h

@[grind .] theorem raiseText_alike (text : String) :
    Alike c (raiseText text : Run H W α) (raiseText text) := raiseAt_alike 0 text

@[grind .] theorem raiseForCaller_alike (text : String) :
    Alike c (raiseForCaller text : Run H W α) (raiseForCaller text) := raiseAt_alike 1 text

end Run
end Sandbox.Script
