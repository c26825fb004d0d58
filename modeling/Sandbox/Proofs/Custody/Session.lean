import Sandbox.Proofs.Custody.Service
import Sandbox.Proofs.Within.Session

/-!
# Sessions keep the loader in custody

What a host does with a session is alike for engines that are, from a guarded machine on.
-/

namespace Sandbox

open Script Script.Run

variable {E : Type} {c : Custody}

/-! ## Setup -/

instance : Carries (Member E) where
  clear c
    | .value v => Clear c v
    | .function _ => True

instance : Carries (HostLibrary E) := ⟨fun c l => Clear c l.opened⟩

namespace Setup

variable {W : Type}

@[grind .] theorem functionOf_alike {H : Type} (name code : String) :
    Alike c (functionOf name code : Run H W Value) (functionOf name code) := by
  unfold functionOf
  grind

@[grind .] theorem setServices_alike (id : Nat) (services : List (String × Service E)) :
    Alike c (setServices id services : Run (Service E) W Unit) (setServices id services) :=
  .forM (clear_of_inert _) fun _ _ => .bind (newFunction_alike trivial) fun _ hf =>
    setField_alike _ _ hf

@[grind .] theorem publish_alike {H : Type} (name : String) (id : Nat) :
    Alike c (Library.publish name id : Run H W Unit) (Library.publish name id) := by
  unfold Library.publish
  grind

theorem installModules_alike (searchPath : String) :
    Alike c (installModules searchPath : Run (Service E) W ModuleTables) (installModules searchPath) := by
  have hnew := newTable_alike (H := Service E) (W := W) (@Table.clear_empty c)
  have hfields (id : Nat) {fields : List (String × Value)} (h : Clear c fields) :
      Alike c (Library.setFields id fields : Run (Service E) W Unit) (Library.setFields id fields) :=
    .forM h fun _ h => setField_alike _ _ h.2
  refine .bind hnew fun package _ => .bind hnew fun preload _ => .bind .get fun m _ => ?_
  refine .bind (hfields _ (by grind)) fun _ _ => .bind (setServices_alike _ _) fun _ _ => ?_
  exact .bind (setServices_alike _ _) fun _ _ => .bind (publish_alike _ _) fun _ _ =>
    .pure (clear_of_inert _)

theorem installLibrary_alike {l : HostLibrary E} (hl : Clear c l) :
    Alike c (installLibrary l : Run (Service E) W Unit) (installLibrary l) := by
  refine .bind (orFail_alike hl) fun members hmembers => ?_
  refine .bind (newTable_alike Table.clear_empty) fun id _ => ?_
  refine .bind (.forM hmembers fun member hmember => ?_) fun _ _ => publish_alike _ _
  obtain ⟨name, member⟩ := member
  cases member with
  | value v => exact setField_alike _ _ hmember.2
  | function e => exact .bind (newFunction_alike trivial) fun _ hf => setField_alike _ _ hf

section Calls

variable {invoke invoke' : Invoke (Service E) W} (hinvoke : CallsAlike c invoke invoke')

include hinvoke

theorem installGlobals_alike : Alike c (installGlobals invoke) (installGlobals invoke') := by
  refine .bind .get fun m _ => .bind (setServices_alike _ _) fun _ _ => ?_
  refine .bind (functionOf_alike _ _) fun f hf => ?_
  refine .bind (.discard (hinvoke.clear _ _ _ hf clear_nil)) fun _ _ => ?_
  exact .forM (clear_of_inert _) fun _ _ => setField_alike _ _ (by simp)

end Calls

section Scripts

variable {invoke invoke' : Invoke (Service E) World} (hinvoke : CallsAlike c invoke invoke')

include hinvoke

theorem runScript_alike (file : SourceFile) :
    Alike c (runScript invoke file) (runScript invoke' file) := by
  refine .bind (Chunk.loadSource_alike file) fun loaded hloaded => ?_
  cases loaded with
  | error e => exact .pure (clear_of_inert _)
  | ok loaded =>
    have hf := Chunk.clear_toFunction (clear_ok.mp hloaded)
    grind

theorem runScripts_alike (files : List SourceFile) :
    Alike c (runScripts invoke files) (runScripts invoke' files) := by
  have hscript := runScript_alike hinvoke
  induction files with
  | nil => exact .pure (clear_of_inert _)
  | cons file rest ih =>
    refine .bind (hscript file) fun r _ => ?_
    cases r with
    | ok _ => exact ih
    | error e =>
      exact .bind (Service.addRecord_alike _ _ _) fun _ _ => .bind ih fun _ _ =>
        .pure (clear_of_inert _)

end Scripts

end Setup

/-! ## Operations -/

namespace Session

theorem valueText_alike (v : Value) :
    Alike c (valueText v : Run (Service E) World _) (valueText v) := by
  have hdescribe : Alike c (describe v : Run (Service E) World String) (describe v) := by
    unfold describe
    grind
  unfold valueText
  grind

section Calls

variable {invoke invoke' : Invoke (Service E) World} (hinvoke : CallsAlike c invoke invoke')

include hinvoke

theorem firstValue_alike (code : String) :
    Alike c (firstValue invoke code) (firstValue invoke' code) := by
  unfold firstValue
  grind

theorem plainValue_alike (v : Value) : Alike c (plainValue invoke v) (plainValue invoke' v) := by
  have hpull (id : Nat) := Exchange.pullTable_alike hinvoke Exchange.depthLimit id
  unfold plainValue
  cases v with
  | table id => exact hpull id
  | text s => grind
  | _ => exact .pure (clear_of_inert _)

theorem fileResults_alike (file : String) (arguments : List String) :
    Alike c (fileResults invoke file arguments) (fileResults invoke' file arguments) := by
  have harguments : Clear c (arguments.map Value.ofString) := fun v hv => by
    obtain ⟨s, -, rfl⟩ := List.mem_map.mp hv
    simp
  refine .bind .get fun m _ => .bind (Chunk.loadFile_alike _ _ (by simp)) fun loaded hloaded => ?_
  cases loaded with
  | error e => exact .pure (clear_error.mpr (clear_of_inert _))
  | ok loaded =>
    refine .bind (orFail_alike (Chunk.clear_toFunction (clear_ok.mp hloaded))) fun f hf => ?_
    refine .bind (hinvoke.clear _ _ _ hf harguments) fun values hvalues => .bind .get fun m _ => ?_
    split
    · exact .pure (clear_ok.mpr hvalues)
    · exact fail_alike _

theorem valueAt_alike (path : List String) :
    Alike c (valueAt invoke path) (valueAt invoke' path) := by
  refine .bind .get fun m _ => .foldlM (by simp) (clear_of_inert _) fun v key hv _ => ?_
  exact index_alike hinvoke hv (by simp) _

end Calls

/-! ### Engines -/

/-- Runs for the host on a machine by some engine. -/
def runBy {α : Type} (engine : Engine (Service E) World) (m : Machine (Service E) World)
    (act : Invoke (Service E) World → Run (Service E) World α) :
    Except Error α × Machine (Service E) World :=
  match (Run.guarded engine.invoke (act engine.invoke)).run m with
  | .ok (.ok a) m => (.ok a, m)
  | .ok (.error fault) m => (.error (.script fault), m)
  | .error _ m => (.error .endless, m)

/-- What an operation answers with. -/
def Operation.Answer : Operation E → Type
  | .setUp .. => List PreInitFailure
  | .exec .. => Unit
  | .eval _ => Option String
  | .evalText _ => String
  | .evalDatum _ => Except Exchange.Error Datum
  | .require _ => Value
  | .runFile .. => Except Chunk.LoadError (List Value)
  | .field _ => Value
  | .setField .. => Unit
  | .call .. => List Value

/-- What an operation does. -/
def Operation.act (invoke : Invoke (Service E) World) :
    (op : Operation E) → Run (Service E) World op.Answer
  | .setUp searchPath libraries files => do
    Setup.install invoke searchPath libraries
    Setup.runScripts invoke files
  | .exec name code => do discard (invoke none (← Setup.functionOf name code) [])
  | .eval code => do valueText (← firstValue invoke code)
  | .evalText code => do
    match ← valueText (← firstValue invoke code) with
    | some text => return text
    | none => Run.fail (.runtime "script returned nil")
  | .evalDatum code => do plainValue invoke (← firstValue invoke code)
  | .require name => do
    let f ← Run.orFail (← Run.hostField invoke (← get).globals "require").toHostFunction
    return (← invoke none f [.ofString name]).headD .nil
  | .runFile file arguments => fileResults invoke file arguments
  | .field path => valueAt invoke path
  | .setField path v => do
    let owner ← valueAt invoke path.dropLast
    Run.setIndex invoke owner (.ofString (path.getLastD "")) v
  | .call path arguments => do invoke none (← valueAt invoke path) arguments

/-- The answer to an operation by some engine, and the machine that it leaves. -/
def Operation.run (engine : Engine (Service E) World) (m : Machine (Service E) World)
    (op : Operation E) : Except Error op.Answer × Machine (Service E) World :=
  runBy engine m op.act

/-- What is behind the setup of the global variables. -/
def setUpRest (invoke : Invoke (Service E) World) (searchPath : String)
    (libraries : List (HostLibrary E)) (files : List SourceFile) :
    Run (Service E) World (List PreInitFailure) := do
  discard (Setup.installModules searchPath)
  let id ← newTable {}
  Setup.setServices id Setup.tableServices
  Library.publish Setup.tableName id
  libraries.forM Setup.installLibrary
  Setup.runScripts invoke files

theorem Operation.act_setUp (invoke : Invoke (Service E) World) (searchPath : String)
    (libraries : List (HostLibrary E)) (files : List SourceFile) :
    (Operation.setUp searchPath libraries files).act invoke = (do
      Setup.installGlobals invoke
      setUpRest invoke searchPath libraries files) := by
  have hsteps : (do
      Setup.install invoke searchPath libraries
      Setup.runScripts invoke files : Run (Service E) World (List PreInitFailure)) = (do
        Setup.installGlobals invoke
        setUpRest invoke searchPath libraries files) := by
    simp only [Setup.install, setUpRest, bind_assoc]
  exact hsteps

/-- The session answers to operations as its engine does. -/
theorem Operation.left_eq (extension : Extension E) (m : Machine (Service E) World) (op : Operation E) :
    op.left extension m = (op.run (engine extension) m).2 := by
  cases op <;> rfl

/-- The operations of sessions. -/
theorem Operation.perform_act (s : Session E) :
    (∀ name code, s.exec name code = s.perform (exec name code : Operation E).act) ∧
    (∀ code, s.eval code = s.perform (eval code : Operation E).act) ∧
    (∀ code, s.evalText code = s.perform (evalText code : Operation E).act) ∧
    (∀ name, s.require name = s.perform (require name : Operation E).act) ∧
    (∀ path, s.field path = s.perform (field path : Operation E).act) ∧
    (∀ path v, s.setField path v = s.perform (setField path v : Operation E).act) ∧
    ∀ path arguments, s.call path arguments = s.perform (call path arguments : Operation E).act :=
  ⟨fun _ _ => rfl, fun _ => rfl, fun _ => rfl, fun _ => rfl, fun _ => rfl, fun _ _ => rfl,
    fun _ _ => rfl⟩

section Alike

/-- What a host gives to the scripts by an operation. -/
instance : Carries (Operation E) where
  clear c
    | .setUp _ libraries _ => Clear c libraries
    | .setField _ v => Clear c v
    | .call _ arguments => Clear c arguments
    | _ => True

instance Operation.carriesAnswer : (op : Operation E) → Carries op.Answer
  | .setUp .. => inferInstanceAs (Carries (List PreInitFailure))
  | .exec .. => inferInstanceAs (Carries Unit)
  | .eval _ => inferInstanceAs (Carries (Option String))
  | .evalText _ => inferInstanceAs (Carries String)
  | .evalDatum _ => inferInstanceAs (Carries (Except Exchange.Error Datum))
  | .require _ => inferInstanceAs (Carries Value)
  | .runFile .. => inferInstanceAs (Carries (Except Chunk.LoadError (List Value)))
  | .field _ => inferInstanceAs (Carries Value)
  | .setField .. => inferInstanceAs (Carries Unit)
  | .call .. => inferInstanceAs (Carries (List Value))

section Calls

variable {invoke invoke' : Invoke (Service E) World} (hinvoke : CallsAlike c invoke invoke')

include hinvoke

theorem setUpRest_alike (searchPath : String) {libraries : List (HostLibrary E)}
    (hlibraries : Clear c libraries) (files : List SourceFile) :
    Alike c (setUpRest invoke searchPath libraries files)
      (setUpRest invoke' searchPath libraries files) :=
  .bind (.discard (Setup.installModules_alike _)) fun _ _ => .bind (newTable_alike Table.clear_empty)
    fun _ _ => .bind (Setup.setServices_alike _ _) fun _ _ => .bind (Setup.publish_alike _ _) fun _ _ =>
      .bind (.forM hlibraries fun _ hl => Setup.installLibrary_alike hl) fun _ _ =>
        Setup.runScripts_alike hinvoke files

/-- An operation is alike for ways of calling that are. -/
theorem Operation.act_alike {op : Operation E} (hop : Clear c op) :
    Alike c (op.act invoke) (op.act invoke') := by
  cases op with
  | setUp searchPath libraries files =>
    rw [act_setUp, act_setUp]
    exact .bind (Setup.installGlobals_alike hinvoke) fun _ _ => setUpRest_alike hinvoke _ hop files
  | exec name code =>
    exact .bind (Setup.functionOf_alike _ _) fun f hf => .discard (hinvoke.clear _ _ _ hf clear_nil)
  | eval code => exact .bind (firstValue_alike hinvoke code) fun v _ => valueText_alike v
  | evalText code =>
    refine .bind (firstValue_alike hinvoke code) fun v _ => .bind (valueText_alike v) fun text _ => ?_
    cases text with
    | none => exact fail_alike _
    | some text => exact .pure trivial
  | evalDatum code => exact .bind (firstValue_alike hinvoke code) fun v _ => plainValue_alike hinvoke v
  | require name =>
    refine .bind .get fun m _ => .bind (hostField_alike hinvoke _ _) fun v hv => ?_
    refine .bind (orFail_alike (Value.clear_toHostFunction hv)) fun f hf => ?_
    refine .bind (hinvoke.clear _ _ _ hf (by simp)) fun values hvalues => ?_
    exact .pure (clear_headD hvalues (by simp))
  | runFile file arguments => exact fileResults_alike hinvoke file arguments
  | field path => exact valueAt_alike hinvoke path
  | setField path v =>
    exact .bind (valueAt_alike hinvoke _) fun owner howner => setIndex_alike hinvoke howner (by simp) hop _
  | call path arguments =>
    exact .bind (valueAt_alike hinvoke path) fun f hf => hinvoke.clear _ _ _ hf hop

end Calls

variable {engine engine' : Engine (Service E) World} {m : Machine (Service E) World}
  (hengine : engine.AlikeFor c engine')

include hengine

/-- Runs for the host that are alike have the same outcome. -/
theorem runBy_alike {α : Type} [Carries α]
    {act : Invoke (Service E) World → Run (Service E) World α} (hm : Guarded c m)
    (hact : Alike c (act engine.invoke) (act engine'.invoke)) :
    runBy engine m act = runBy engine' m act ∧
      (∀ a, (runBy engine m act).1 = .ok a → Clear c a) ∧ Guarded c (runBy engine m act).2 := by
  have hinvoke := Engine.invoke_alike hengine
  obtain ⟨heq, hkept⟩ := guarded_alike hinvoke hact m hm
  unfold runBy
  rw [← heq]
  cases hrun : (guarded engine.invoke (act engine.invoke)).run m with
  | ok r m' =>
    rw [hrun] at hkept
    cases r with
    | ok a => exact ⟨rfl, fun b hb => Except.ok.inj hb ▸ clear_ok.mp hkept.1, hkept.2⟩
    | error fault => exact ⟨rfl, fun b hb => (by cases hb), hkept.2⟩
  | error stop m' =>
    rw [hrun] at hkept
    exact ⟨rfl, fun b hb => (by cases hb), hkept.2⟩

/-- An operation has the same answer by engines that are alike, and leaves the machine guarded. -/
theorem Operation.run_alike (hm : Guarded c m) {op : Operation E} (hop : Clear c op) :
    op.run engine m = op.run engine' m ∧
      (∀ a, (op.run engine m).1 = .ok a → Clear c a) ∧ Guarded c (op.run engine m).2 :=
  runBy_alike hengine hm (act_alike (Engine.invoke_alike hengine) hop)

end Alike

end Session

/-! ## Another loader -/

namespace Script.Engine

variable {H W : Type}

end Script.Engine

/-- The engine of a session is alike to itself. -/
theorem Session.engine_alike {extension : Extension E} (hextension : Service.HandsBack extension) :
    (Session.engine extension).AlikeFor c (Session.engine extension) where
  routine hinvoke _ _ hr hclear harguments := routine_alike hinvoke hr hclear harguments
  load hinvoke _ harguments := loadText_alike hinvoke (clear_textArguments harguments)
  host hinvoke s _ harguments := Service.run_alike hextension hinvoke s harguments

end Sandbox
