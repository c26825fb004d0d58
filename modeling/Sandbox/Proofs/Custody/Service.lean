import Sandbox.Proofs.Within.Service
import Sandbox.Proofs.Custody.Library
import Sandbox.Proofs.Service.Output
import Sandbox.Proofs.Exchange.Outcome
import Sandbox.Session.Basic

/-!
# Services keep the loader in custody

What a session gives to its scripts is alike for ways of calling that are. Whatever it makes a function of,
it compiles as text itself, and it does not ask the loader.
-/

namespace Sandbox

open Script Script.Run

variable {H W E α β : Type} [Carries α] [Carries β] {c : Custody}

/-! ## Exchanges -/

namespace Exchange

theorem pure_alike {a : α} (ha : Clear c a) :
    Alike c (pure a : Exchanging H W α).run (pure a : Exchanging H W α).run :=
  .pure (clear_ok.mpr ha)

theorem throw_alike (e : Error) :
    Alike c (throw e : Exchanging H W α).run (throw e : Exchanging H W α).run :=
  .pure (clear_error.mpr (clear_of_inert e))

theorem bind_alike {act act' : Exchanging H W α} {next next' : α → Exchanging H W β}
    (hact : Alike c act.run act'.run) (hnext : ∀ a, Clear c a → Alike c (next a).run (next' a).run) :
    Alike c (act >>= next).run (act' >>= next').run := by
  rw [ExceptT.run_bind, ExceptT.run_bind]
  refine .bind hact fun r hr => ?_
  cases r with
  | ok a => exact hnext a (clear_ok.mp hr)
  | error e => exact .pure (clear_error.mpr (clear_of_inert e))

theorem lift_alike {act act' : Run H W α} (hact : Alike c act act') :
    Alike c (monadLift act : Exchanging H W α).run (monadLift act' : Exchanging H W α).run :=
  .map hact fun _ ha => clear_ok.mpr ha

theorem mapM_alike {f f' : α → Exchanging H W β} {l : List α} (hl : Clear c l)
    (hf : ∀ a, Clear c a → Alike c (f a).run (f' a).run) : Alike c (l.mapM f).run (l.mapM f').run := by
  induction l with
  | nil => exact pure_alike clear_nil
  | cons a rest ih =>
    obtain ⟨ha, hrest⟩ := clear_cons.mp hl
    rw [List.mapM_cons, List.mapM_cons]
    exact bind_alike (hf a ha) fun b hb => bind_alike (ih hrest) fun bs hbs =>
      pure_alike (clear_cons.mpr ⟨hb, hbs⟩)

theorem liftExcept_alike {r : Except Error α} (hr : Clear c r) :
    Alike c (pullTable.liftExcept r : Exchanging H W α).run
      (pullTable.liftExcept r : Exchanging H W α).run := by
  cases r with
  | ok a => exact pure_alike (clear_ok.mp hr)
  | error e => exact throw_alike e

/-! ### To scripts -/

mutual

theorem push_alike : (d : Datum) →
    Alike c (push d : Exchanging H W Value).run (push d : Exchanging H W Value).run
  | .null | .bool _ | .int _ | .float _ | .text _ => by
    unfold push
    exact pure_alike (by simp)
  | .foreign _ => by
    unfold push
    exact throw_alike _
  | .list items => by
    unfold push
    exact bind_alike (lift_alike (newTable_alike (Table.clear_withSizes _ _))) fun id _ =>
      bind_alike (pushItems_alike id 1 items) fun _ _ => pure_alike (by simp)
  | .record fields => by
    unfold push
    exact bind_alike (lift_alike (newTable_alike (Table.clear_withSizes _ _))) fun id _ =>
      bind_alike (pushFields_alike id fields) fun _ _ => pure_alike (by simp)

theorem pushItems_alike (id index : Nat) : (items : List Datum) →
    Alike c (pushItems id index items : Exchanging H W Unit).run
      (pushItems id index items : Exchanging H W Unit).run
  | [] => by
    unfold pushItems
    exact pure_alike (clear_of_inert _)
  | item :: rest => by
    unfold pushItems
    refine bind_alike (push_alike item) fun v hv => bind_alike (lift_alike ?_) fun _ _ =>
      pushItems_alike id (index + 1) rest
    exact modifyTable_alike id fun _ ht => Table.clear_setIndex ht index hv

theorem pushFields_alike (id : Nat) : (fields : List (String × Datum)) →
    Alike c (pushFields id fields : Exchanging H W Unit).run
      (pushFields id fields : Exchanging H W Unit).run
  | [] => by
    unfold pushFields
    exact pure_alike (clear_of_inert _)
  | (key, item) :: rest => by
    unfold pushFields
    exact bind_alike (push_alike item) fun v hv =>
      bind_alike (lift_alike (setField_alike id key hv)) fun _ _ => pushFields_alike id rest

end

/-! ### From scripts -/

theorem makeList_alike (id : Nat) (length : Int) (items : List (Int × Datum)) :
    Alike c (makeList id length items : Exchanging H W Datum).run
      (makeList id length items : Exchanging H W Datum).run := by
  refine bind_alike (lift_alike (rawLength_alike id)) fun border _ => ?_
  dsimp only
  split
  · split
    · exact bind_alike (throw_alike _) fun _ _ => pure_alike (clear_of_inert _)
    · exact pure_alike (clear_of_inert _)
  · exact pure_alike (clear_of_inert _)

section Calls

variable {invoke invoke' : Invoke H W} (hinvoke : CallsAlike c invoke invoke')

include hinvoke

theorem lengthOf_alike (id : Nat) : Alike c (lengthOf invoke id).run (lengthOf invoke' id).run := by
  refine bind_alike (lift_alike (table_alike id)) fun t _ => ?_
  refine bind_alike (lift_alike (guarded_alike hinvoke ?_)) fun measured _ => ?_
  · grind
  · cases measured with
    | ok n => exact pure_alike (clear_of_inert _)
    | error fault => exact throw_alike _

theorem pullTable_alike (depth id : Nat) :
    Alike c (pullTable invoke depth id).run (pullTable invoke' depth id).run := by
  induction depth generalizing id with
  | zero => exact throw_alike _
  | succ depth ih =>
    have hinner (v : Value) : Alike c (pullInner invoke depth v).run (pullInner invoke' depth v).run := by
      unfold pullInner
      split
      · exact ih _
      · exact liftExcept_alike (clear_of_inert _)
    have hitem (length : Int) (entry : Value × Value) :
        Alike c (pullItem invoke depth length entry).run (pullItem invoke' depth length entry).run := by
      refine bind_alike (liftExcept_alike (clear_of_inert _)) fun i _ => ?_
      dsimp only
      split
      · exact bind_alike (throw_alike _) fun _ _ => bind_alike (hinner _) fun _ _ =>
          pure_alike (clear_of_inert _)
      · exact bind_alike (hinner _) fun _ _ => pure_alike (clear_of_inert _)
    have hfield (entry : Value × Value) :
        Alike c (pullField invoke depth entry).run (pullField invoke' depth entry).run :=
      bind_alike (liftExcept_alike (clear_of_inert _)) fun key _ => bind_alike (hinner _) fun _ _ =>
        pure_alike (clear_of_inert _)
    rw [pullTable_succ, pullTable_succ]
    refine bind_alike (lengthOf_alike hinvoke id) fun length _ => ?_
    refine bind_alike (lift_alike (table_alike id)) fun t ht => ?_
    have hentries := Table.clear_entries ht
    split
    · exact bind_alike (mapM_alike hentries fun e _ => hitem length e) fun items _ =>
        makeList_alike id _ items
    · exact bind_alike (mapM_alike hentries fun e _ => hfield e) fun _ _ =>
        pure_alike (clear_of_inert _)

theorem pullArgument_alike (v : Value) :
    Alike c (pullArgument invoke v).run (pullArgument invoke' v).run := by
  unfold pullArgument
  split
  case h_1 => exact pure_alike (clear_of_inert _)
  case h_2 => exact pullTable_alike hinvoke _ _
  case h_8 =>
    split
    · exact pure_alike (clear_of_inert _)
    · exact throw_alike _
  all_goals exact pure_alike (clear_of_inert _)

theorem pullValue_alike (v : Value) :
    Alike c (pullValue invoke v).run (pullValue invoke' v).run := by
  unfold pullValue
  split
  · exact pullTable_alike hinvoke _ _
  · exact throw_alike _

end Calls

end Exchange

/-! ## Loading -/

namespace Chunk

instance : Carries Loaded where
  clear c
    | .chunk f => Clear c f
    | .refused _ => True

@[grind =] theorem clear_chunk {f : Value} : Clear c (Loaded.chunk f) ↔ Clear c f := .rfl

@[grind .] theorem clear_refused (refusal : Refusal) : Clear c (Loaded.refused refusal) := trivial

@[grind .] theorem clear_toFunction {loaded : Loaded} (h : Clear c loaded) : Clear c loaded.toFunction := by
  cases loaded with
  | chunk f => exact clear_ok.mpr h
  | refused refusal => exact clear_error.mpr (clear_of_inert _)

@[grind .] theorem instantiate_alike (name : String) (compiled : Except Refusal Function) {scope : Value}
    (hscope : Clear c scope) : Alike c (instantiate name compiled scope : Run H W _)
      (instantiate name compiled scope) := by
  unfold instantiate
  grind

@[grind .] theorem load_alike (name : String) (source : ByteArray) {scope : Value}
    (hscope : Clear c scope) :
    Alike c (load name source scope : Run H W _) (load name source scope) := by
  unfold load
  grind

@[grind .] theorem loadSource_alike (file : SourceFile) :
    Alike c (loadSource file : Run H W _) (loadSource file) := by
  unfold loadSource
  grind

@[grind .] theorem readInput_alike : Alike c (readInput : Run H World _) readInput := by
  refine .of_get fun m hm => ?_
  split
  · exact ⟨rfl, clear_of_inert _, hm⟩
  · exact ⟨rfl, clear_of_inert _, hm.congr rfl rfl rfl⟩

@[grind .] theorem readFile_alike (file : String) :
    Alike c (readFile file : Run H World _) (readFile file) := by
  unfold readFile
  grind

@[grind .] theorem loadFile_alike (file mode : Option String) {scope : Value} (hscope : Clear c scope) :
    Alike c (loadFile file mode scope : Run H World _) (loadFile file mode scope) := by
  unfold loadFile
  grind

end Chunk

/-! ## Values for the host -/

namespace Script.Value

@[grind .] theorem clear_toHostFunction {v : Value} (h : Clear c v) : Clear c v.toHostFunction := by
  cases v <;> grind [toHostFunction]

end Script.Value

/-! ## Modules -/

instance : Carries Finding where
  clear c
    | .missing _ => True
    | .found loader _ => Clear c loader

namespace Searcher

@[grind =] theorem clear_found {loader : Value} {label : String} :
    Clear c (Finding.found loader label) ↔ Clear c loader := .rfl

@[grind .] theorem clear_missing (trail : String) : Clear c (Finding.missing trail) := trivial

@[grind .] theorem foundIn_alike (name file : String) {loaded : Except Chunk.LoadError Chunk.Loaded}
    (h : Clear c loaded) : Alike c (foundIn name file loaded : Run H World Finding)
      (foundIn name file loaded) := by
  unfold foundIn
  grind

@[grind .] theorem searchLibrary_alike (name : String) :
    Alike c (searchLibrary name : Run H World Finding) (searchLibrary name) := by
  unfold searchLibrary
  grind

@[grind .] theorem loadStored_alike (file : String) :
    Alike c (loadStored file : Run H World _) (loadStored file) := by
  unfold loadStored
  grind

section Calls

variable {invoke invoke' : Invoke H World} (hinvoke : CallsAlike c invoke invoke')

include hinvoke

@[grind .] theorem searchPreload_alike (tables : ModuleTables) (name : String) :
    Alike c (searchPreload invoke tables name) (searchPreload invoke' tables name) := by
  refine .bind (hostField_alike hinvoke _ _) fun v hv => ?_
  cases v <;> grind

@[grind .] theorem searchStore_alike (tables : ModuleTables) (name : String) :
    Alike c (searchStore invoke tables name) (searchStore invoke' tables name) := by
  have hpath : Alike c (currentPath invoke tables) (currentPath invoke' tables) := by
    refine .bind (hostField_alike hinvoke _ _) fun v _ => ?_
    cases v <;> grind
  refine .bind hpath fun path _ => .bind .get fun m _ => ?_
  dsimp only
  split
  · exact .pure (clear_missing _)
  · exact .bind (loadStored_alike _) fun _ h => foundIn_alike _ _ h

@[grind .] theorem search_alike (tables : ModuleTables) (name : String) (s : Searcher) :
    Alike c (s.search invoke tables name) (s.search invoke' tables name) := by
  cases s <;> grind [search]

end Calls

end Searcher

namespace Module

@[grind .] theorem note_alike (event : Event) : Alike c (note event : Run H World Unit) (note event) :=
  .modify fun _ hm => hm.congr rfl rfl rfl

@[grind .] theorem noteModules_alike (event : Table → Event) :
    Alike c (noteModules event : Run H World Unit) (noteModules event) := by
  unfold noteModules
  grind

section Calls

variable {invoke invoke' : Invoke H World} (hinvoke : CallsAlike c invoke invoke')

include hinvoke

@[grind .] theorem kept_alike (name : String) :
    Alike c (kept invoke name) (kept invoke' name) := by
  unfold kept
  grind

@[grind .] theorem keep_alike (name : String) {v : Value} (hv : Clear c v) :
    Alike c (keep invoke name v) (keep invoke' name v) := by
  unfold keep
  grind

@[grind .] theorem settle_alike (name : String) {result : Value} (hresult : Clear c result) :
    Alike c (settle invoke name result) (settle invoke' name result) := by
  unfold settle keepResult keptOrTrue
  grind

@[grind .] theorem make_alike (name : String) {loader : Value} (hloader : Clear c loader)
    (label : String) : Alike c (make invoke name loader label) (make invoke' name loader label) := by
  refine .bind (note_alike _) fun _ _ => ?_
  refine .bind (callGuarded_alike hinvoke hloader (by simp)) fun outcome houtcome => ?_
  refine .bind (orFail_alike houtcome) fun results hresults => ?_
  exact settle_alike hinvoke name (clear_headD hresults (by simp))

theorem consult_alike (tables : ModuleTables) (name : String) (searchers : List Searcher)
    (trail : String) : Alike c (consult invoke tables name searchers trail)
      (consult invoke' tables name searchers trail) := by
  induction searchers generalizing trail with
  | nil => exact fail_alike _
  | cons s rest ih =>
    refine .bind (.bind (note_alike _) fun _ _ => Searcher.search_alike hinvoke tables name s)
      fun finding hfinding => ?_
    cases finding with
    | missing more => exact ih _
    | found loader label => exact make_alike hinvoke name hfinding label

@[grind .] theorem require_alike (tables : ModuleTables) (name : String) :
    Alike c (require invoke tables name) (require invoke' tables name) := by
  have hconsult := consult_alike hinvoke tables name Searcher.all ""
  unfold require
  grind

end Calls

end Module

/-! ## Services -/

namespace Service

@[grind .] theorem write_alike (bytes : ByteArray) :
    Alike c (write bytes : Run H World Unit) (write bytes) := by
  intro m hm
  have hfail (fault : Fault) (m : Machine H World) (hm : Guarded c m) :=
    fail_alike (α := Unit) fault m hm
  cases hheld : m.world.output.isHeld with
  | false =>
    rw [write_run hheld]
    cases m.world.output.write bytes with
    | ok output => exact ⟨rfl, clear_of_inert _, hm.congr rfl rfl rfl⟩
    | error flaw => exact hfail _ m hm
  | true =>
    rw [write_run_of_held hheld]
    exact hfail _ _ (hm.congr rfl rfl rfl)

@[grind .] theorem loadFileFor_alike (arguments : List Value) :
    Alike c (loadFileFor arguments : Run H World (List Value)) (loadFileFor arguments) := by
  refine .bind (orFail_alike (clear_of_inert _)) fun wanted _ => .bind .get fun m _ => ?_
  refine .bind (Chunk.loadFile_alike _ _ (by simp)) fun loaded hloaded => ?_
  cases loaded with
  | error e => exact fail_alike _
  | ok loaded => cases loaded <;> grind

@[grind .] theorem searchPathFor_alike (arguments : List Value) :
    Alike c (searchPathFor arguments : Run H World (List Value)) (searchPathFor arguments) := by
  refine .bind (orFail_alike (clear_of_inert _)) fun name _ => ?_
  refine .bind (orFail_alike (clear_of_inert _)) fun path _ => ?_
  refine .bind (orFail_alike (clear_of_inert _)) fun separator _ => ?_
  refine .bind (orFail_alike (clear_of_inert _)) fun directory _ => .bind .get fun m _ => ?_
  dsimp only
  split <;> exact .pure (by simp)

@[grind .] theorem loadLibraryFor_alike (arguments : List Value) :
    Alike c (loadLibraryFor arguments : Run H World (List Value)) (loadLibraryFor arguments) := by
  unfold loadLibraryFor
  grind

@[grind .] theorem origin?_alike : Alike c (origin? : Run H World (Option String)) origin? := by
  grind [origin?]

@[grind .] theorem addRecord_alike (severity : Severity) (message : String)
    (fields : List (String × Datum)) :
    Alike c (addRecord severity message fields : Run H World Unit) (addRecord severity message fields) :=
  .modify fun _ hm => hm.congr rfl rfl rfl

@[grind .] theorem exchanged_alike {act act' : Exchange.Exchanging H World α}
    (hact : Alike c act.run act'.run) : Alike c (exchanged act) (exchanged act') := by
  refine .bind hact fun r hr => orFail_alike ?_
  cases r with
  | ok a => exact clear_ok.mpr (clear_ok.mp hr)
  | error e => exact clear_error.mpr (clear_of_inert _)

@[grind .] theorem readFor_alike {ε : Type} (parse : String → Except ε Datum) (message : ε → String)
    (arguments : List Value) : Alike c (readFor parse message arguments : Run H World _)
      (readFor parse message arguments) := by
  have hpush (d : Datum) := exchanged_alike (Exchange.push_alike (c := c) (H := H) d)
  unfold readFor
  grind

section Calls

variable {invoke invoke' : Invoke H World} (hinvoke : CallsAlike c invoke invoke')

include hinvoke

@[grind .] theorem textBy_alike {f v : Value} (hf : Clear c f) (hv : Clear c v) :
    Alike c (textBy invoke f v) (textBy invoke' f v) := by
  unfold textBy
  grind

@[grind .] theorem printLine_alike {values : List Value} (hvalues : Clear c values) :
    Alike c (printLine invoke values) (printLine invoke' values) := by
  unfold printLine
  grind

@[grind .] theorem runFileFor_alike (arguments : List Value) :
    Alike c (runFileFor invoke arguments) (runFileFor invoke' arguments) := by
  refine .bind (orFail_alike (clear_of_inert _)) fun file _ => .bind .get fun m _ => ?_
  refine .bind (Chunk.loadFile_alike _ _ (by simp)) fun loaded hloaded => ?_
  cases loaded with
  | error e => exact fail_alike _
  | ok loaded =>
    refine .bind (orFail_alike (Chunk.clear_toFunction (clear_ok.mp hloaded))) fun f hf => ?_
    exact .bind (callGuarded_alike hinvoke hf clear_nil) fun r hr => orFail_alike hr

@[grind .] theorem recordFields_alike (parameters : Option Nat) :
    Alike c (recordFields invoke parameters) (recordFields invoke' parameters) := by
  have hpull (id : Nat) := Exchange.pullTable_alike hinvoke Exchange.depthLimit id
  unfold recordFields
  grind [Exchange.pull]

@[grind .] theorem logFor_alike (arguments : List Value) :
    Alike c (logFor invoke arguments) (logFor invoke' arguments) := by
  refine .bind (orFail_alike (clear_of_inert _)) fun level _ => ?_
  refine .bind (orFail_alike (clear_of_inert _)) fun message _ => ?_
  refine .bind (orFail_alike (clear_of_inert _)) fun parameters _ => ?_
  grind

end Calls

/-- Extensions answer with no functions but those that they are given. -/
def HandsBack (extension : Extension E) : Prop :=
  ∀ e w values results, extension e w values = .ok results →
    ∀ id, Value.function id ∈ results → Value.function id ∈ values

/-- The services of a session are alike for ways of calling that are. -/
theorem run_alike {extension : Extension E} (hextension : HandsBack extension)
    {invoke invoke' : Invoke (Service E) World} (hinvoke : CallsAlike c invoke invoke') (s : Service E)
    {values : List Value} (hvalues : Clear c values) :
    Alike c (s.run extension invoke values) (s.run extension invoke' values) := by
  have hpush (d : Datum) := exchanged_alike (Exchange.push_alike (c := c) (H := Service E) d)
  have hmany := exchanged_alike
    (Exchange.mapM_alike hvalues fun v _ => Exchange.pullArgument_alike hinvoke v)
  have hvalue (v : Value) := exchanged_alike (Exchange.pullValue_alike hinvoke v)
  cases s with
  | yamlText => exact .bind hmany fun _ _ => .pure (by simp)
  | jsonText => exact .bind (hvalue _) fun _ _ => .pure (by simp)
  | extra e =>
    refine .bind .get fun m _ => orFail_alike ?_
    cases hanswer : extension e m.world values with
    | error fault => exact clear_error.mpr (clear_of_inert _)
    | ok results =>
      refine clear_ok.mpr fun v hv heq => ?_
      exact hvalues _ (hextension e m.world values results hanswer _ (heq ▸ hv)) rfl
  | _ => unfold Service.run; grind

end Service

end Sandbox
