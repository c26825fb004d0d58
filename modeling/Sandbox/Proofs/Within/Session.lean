import Sandbox.Proofs.Within.Service

/-!
# The life of a session

What a host does with a session, one operation after the other. An operation leaves a machine that is
related to the one before by every relation for sessions that all calls are within.
-/

namespace Sandbox

open Script Script.Run

variable {E : Type}

section Within

variable {R : Machine (Service E) World → Machine (Service E) World → Prop} (hR : Serving R)

include hR

/-! ## Setup -/

namespace Setup

@[grind .] theorem functionOf_within (name code : String) :
    Within R (functionOf name code : Run (Service E) World Value) := by
  have hP := hR.toPermissive
  unfold functionOf
  grind

theorem setServices_within (id : Nat) (services : List (String × Service E)) :
    Within R (setServices id services : Run (Service E) World Unit) := by
  have hP := hR.toPermissive
  exact .forM hP (fun _ => .bind hP (newFunction_within hP _) fun _ => setField_within hP _ _ _) _

theorem publish_within (name : String) (id : Nat) :
    Within R (Library.publish name id : Run (Service E) World Unit) := by
  have hP := hR.toPermissive
  unfold Library.publish
  grind

theorem setFields_within (id : Nat) (fields : List (String × Value)) :
    Within R (Library.setFields id fields : Run (Service E) World Unit) := by
  have hP := hR.toPermissive
  exact .forM hP (fun _ => setField_within hP _ _ _) _

theorem setRoutines_within (id : Nat) (routines : List (String × Routine)) :
    Within R (Library.setRoutines id routines : Run (Service E) World Unit) := by
  have hP := hR.toPermissive
  exact .forM hP (fun _ => .bind hP (newFunction_within hP _) fun _ => setField_within hP _ _ _) _

theorem newModule_within (name : String) (routines : List (String × Routine)) :
    Within R (Library.newModule name routines : Run (Service E) World Nat) := by
  have hP := hR.toPermissive
  exact .bind hP (newTable_within hP Table.sound_empty) fun id =>
    .bind hP (setRoutines_within hR id _) fun _ => .bind hP (publish_within hR name id) fun _ =>
      .pure hP id

theorem installModules_within (searchPath : String) :
    Within R (installModules searchPath : Run (Service E) World ModuleTables) := by
  have hP := hR.toPermissive
  have hnew := newTable_within hP Table.sound_empty
  refine .bind hP hnew fun package => .bind hP hnew fun preload => .bind hP (.get hP) fun m => ?_
  exact .bind hP (setFields_within hR _ _) fun _ => .bind hP (setServices_within hR _ _) fun _ =>
    .bind hP (setServices_within hR _ _) fun _ => .bind hP (publish_within hR _ _) fun _ => .pure hP _

theorem installLibrary_within (l : HostLibrary E) :
    Within R (installLibrary l : Run (Service E) World Unit) := by
  have hP := hR.toPermissive
  have hnew := newTable_within hP Table.sound_empty
  refine .bind hP (orFail_within hP _) fun members => .bind hP hnew fun id => ?_
  refine .bind hP (.forM hP (fun member => ?_) _) fun _ => publish_within hR _ _
  obtain ⟨name, member⟩ := member
  cases member <;> grind [service]

section Calls

variable {invoke : Invoke (Service E) World} (hinvoke : Calls R invoke)

include hinvoke

theorem install_within (searchPath : String) (libraries : List (HostLibrary E)) :
    Within R (install invoke searchPath libraries) := by
  have hP := hR.toPermissive
  have hglobals : Within R (installGlobals invoke) := by
    have hservices := setServices_within hR
    unfold installGlobals
    grind
  refine .bind hP hglobals fun _ => .bind hP (.discard hP (installModules_within hR _)) fun _ => ?_
  refine .bind hP (newTable_within hP Table.sound_empty) fun id => ?_
  exact .bind hP (setServices_within hR _ _) fun _ => .bind hP (publish_within hR _ _) fun _ =>
    .forM hP (installLibrary_within hR) _

theorem runScripts_within (files : List SourceFile) : Within R (runScripts invoke files) := by
  have hP := hR.toPermissive
  have hscript (file : SourceFile) : Within R (runScript invoke file) := by
    refine .bind hP (Chunk.loadSource_within hR file) fun loaded => ?_
    grind
  induction files with
  | nil => exact .pure hP _
  | cons file rest ih => unfold runScripts; grind

end Calls

end Setup

/-! ## Operations -/

namespace Session

theorem valueText_within (v : Value) : Within R (valueText v : Run (Service E) World _) := by
  have hP := hR.toPermissive
  have hdescribe : Within R (describe v : Run (Service E) World String) := by
    unfold describe
    grind
  unfold valueText
  grind

section Calls

variable {invoke : Invoke (Service E) World} (hinvoke : Calls R invoke)

include hinvoke

theorem firstValue_within (code : String) : Within R (firstValue invoke code) := by
  have hP := hR.toPermissive
  unfold firstValue
  grind

theorem plainValue_within (v : Value) : Within R (plainValue invoke v) := by
  have hP := hR.toPermissive
  have hpull (id : Nat) := Exchange.pullTable_within hP hinvoke Exchange.depthLimit id
  unfold plainValue
  grind [Exchange.pull]

theorem fileResults_within (file : String) (arguments : List String) :
    Within R (fileResults invoke file arguments) := by
  have hP := hR.toPermissive
  refine .bind hP (.get hP) fun m => .bind hP (Chunk.loadFile_within hR _ _ _) fun loaded => ?_
  grind

theorem valueAt_within (path : List String) : Within R (valueAt invoke path) := by
  have hP := hR.toPermissive
  unfold valueAt
  grind

end Calls

end Session

end Within

namespace Session

/-- All that a session does when it is created. -/
def preparation (e : Environment E) (invoke : Invoke (Service E) World) :
    Run (Service E) World (List PreInitFailure) := do
  Setup.install invoke e.searchPath e.hostLibraries
  Setup.runScripts invoke e.preInit

/-- There is a session if all of this ends well. -/
theorem create_eq (extension : Extension E) (e : Environment E) : create extension e =
    (runOn extension (.fresh e.world) (preparation e)).1.map fun failures =>
      ⟨extension, (runOn extension (.fresh e.world) (preparation e)).2, failures⟩ := by
  delta create preparation
  dsimp only
  generalize runOn extension (.fresh e.world) _ = r
  obtain ⟨r | failures, m⟩ := r
  · rfl
  · rfl

/-- The machine of a session is what this has left. -/
theorem runOn_of_create {extension : Extension E} {e : Environment E} {s : Session E}
    (h : create extension e = .ok s) :
    ∃ failures, runOn extension (.fresh e.world) (preparation e) = (.ok failures, s.machine) := by
  rw [create_eq] at h
  cases hrun : runOn extension (.fresh e.world) (preparation e) with
  | mk r m =>
    rw [hrun] at h
    cases r with
    | error x => cases h
    | ok failures =>
      obtain rfl := Except.ok.inj h
      exact ⟨failures, rfl⟩

/-- What a host does with a session. -/
inductive Operation (E : Type)
  /-- Sets up the services and runs the scripts that come before all others. -/
  | setUp (searchPath : String) (libraries : List (HostLibrary E)) (files : List SourceFile)
  | exec (name code : String)
  | eval (code : String)
  | evalText (code : String)
  | evalDatum (code : String)
  | require (name : String)
  | runFile (file : String) (arguments : List String)
  | field (path : List String)
  | setField (path : List String) (v : Value)
  | call (path : List String) (arguments : List Value)

/-- The machine that an operation leaves. -/
def Operation.left (extension : Extension E) (m : Machine (Service E) World) :
    Operation E → Machine (Service E) World
  | .setUp searchPath libraries files =>
    (runOn extension m fun invoke => do
      Setup.install invoke searchPath libraries
      Setup.runScripts invoke files).2
  | .exec name code => (Session.exec ⟨extension, m, []⟩ name code).2.machine
  | .eval code => (Session.eval ⟨extension, m, []⟩ code).2.machine
  | .evalText code => (Session.evalText ⟨extension, m, []⟩ code).2.machine
  | .evalDatum code => (Session.evalDatum ⟨extension, m, []⟩ code).2.machine
  | .require name => (Session.require ⟨extension, m, []⟩ name).2.machine
  | .runFile file arguments => (Session.runFile ⟨extension, m, []⟩ file arguments).2.machine
  | .field path => (Session.field ⟨extension, m, []⟩ path).2.machine
  | .setField path v => (Session.setField ⟨extension, m, []⟩ path v).2.machine
  | .call path arguments => (Session.call ⟨extension, m, []⟩ path arguments).2.machine

section Within

variable {R : Machine (Service E) World → Machine (Service E) World → Prop} (hR : Serving R)
  {extension : Extension E} (hinvoke : Calls R (engine extension).invoke)

include hR hinvoke

theorem runOn_within {α : Type} (m : Machine (Service E) World)
    {act : Invoke (Service E) World → Run (Service E) World α}
    (hact : ∀ invoke, Calls R invoke → Within R (act invoke)) : R m (runOn extension m act).2 := by
  have hguarded := guarded_within hR.toPermissive hinvoke (hact _ hinvoke)
  unfold runOn
  dsimp only
  split
  case h_1 h => exact hguarded.of_ok h
  case h_2 h => exact hguarded.of_ok h
  case h_3 h => exact hguarded.of_error h

/-- An operation leaves a machine that is related to the one before. -/
theorem Operation.left_within (m : Machine (Service E) World) (op : Operation E) :
    R m (op.left extension m) := by
  have hP := hR.toPermissive
  have hperform {α : Type} {act : Invoke (Service E) World → Run (Service E) World α}
      (hact : ∀ invoke, Calls R invoke → Within R (act invoke)) :
      R m (perform ⟨extension, m, []⟩ act).2.machine := runOn_within hR hinvoke m hact
  cases op with
  | setUp searchPath libraries files =>
    exact runOn_within hR hinvoke m fun invoke hinvoke =>
      .bind hP (Setup.install_within hR hinvoke _ _) fun _ => Setup.runScripts_within hR hinvoke _
  | exec name code =>
    exact hperform fun invoke hinvoke => .bind hP (Setup.functionOf_within hR _ _) fun _ =>
      .discard hP (hinvoke.within _ _ _)
  | eval code =>
    exact hperform fun invoke hinvoke =>
      .bind hP (firstValue_within hR hinvoke _) (valueText_within hR)
  | evalText code =>
    refine hperform fun invoke hinvoke => .bind hP (firstValue_within hR hinvoke _) fun v => ?_
    refine .bind hP (valueText_within hR v) fun text => ?_
    cases text <;> grind
  | evalDatum code =>
    have hvalue := @hperform _ (fun invoke => do plainValue invoke (← firstValue invoke code))
      fun invoke hinvoke => .bind hP (firstValue_within hR hinvoke _) (plainValue_within hR hinvoke)
    simpa only [Operation.left, Session.evalDatum] using hvalue
  | require name =>
    exact hperform fun invoke hinvoke => .bind hP (.get hP) fun m =>
      .bind hP (hostField_within hP hinvoke _ _) fun _ => .bind hP (orFail_within hP _) fun _ =>
        .bind hP (hinvoke.within _ _ _) fun _ => .pure hP _
  | runFile file arguments =>
    have hfile := @hperform _ (fun invoke => fileResults invoke file arguments)
      fun invoke hinvoke => fileResults_within hR hinvoke _ _
    simpa only [Operation.left, Session.runFile] using hfile
  | field path => exact hperform fun invoke hinvoke => valueAt_within hR hinvoke _
  | setField path v =>
    refine hperform fun invoke hinvoke => .bind hP (valueAt_within hR hinvoke _) fun owner => ?_
    exact setIndex_within hP hinvoke owner _ v _
  | call path arguments =>
    exact @hperform _ (fun invoke => do invoke none (← valueAt invoke path) arguments)
      fun invoke hinvoke => .bind hP (valueAt_within hR hinvoke _) fun _ => hinvoke.within _ _ _

end Within

end Session

end Sandbox
