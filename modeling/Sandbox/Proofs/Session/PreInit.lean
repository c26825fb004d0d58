import Sandbox.Proofs.Chunk.Outcome
import Sandbox.Proofs.Within.Module
import Sandbox.Proofs.Within.Session

/-!
# Scripts before all others

The scripts that run before all others are taken one after the other, and each goes its way to the end on
its own: it does not compile, or its function is called once and fails or returns. `Setup.Stage` is the
part that one script has in this. The next script finds what the one before has left, and the only thing
that is done in between is to log a failure.
-/

namespace Sandbox

open Script Script.Run

/-! ## Logs that grow -/

namespace Log

/-- The record that a log makes of a message, unless it does not keep such records. -/
def recordOf? (log : Log) (severity : Severity) (message : String) (fields : List (String × Datum)) :
    Option Record :=
  if log.isSelective && !log.threshold.admits severity then none
  else some ⟨severity, message, Named.insertAll log.context fields⟩

/-- The log with more records. -/
def withRecords (log : Log) (records : List Record) : Log :=
  { log with records := log.records ++ records }

theorem add_eq (log : Log) (severity : Severity) (message : String) (fields : List (String × Datum)) :
    log.add severity message fields =
      log.withRecords (log.recordOf? severity message fields).toList := by
  unfold add recordOf? withRecords
  split
  · simp
  · rfl

@[simp] theorem withRecords_nil (log : Log) : log.withRecords [] = log := by
  simp [withRecords]

theorem withRecords_append (log : Log) (records more : List Record) :
    log.withRecords (records ++ more) = (log.withRecords records).withRecords more := by
  simp [withRecords]

@[simp] theorem recordOf?_withRecords (log : Log) (records : List Record) (severity : Severity)
    (message : String) (fields : List (String × Datum)) :
    (log.withRecords records).recordOf? severity message fields =
      log.recordOf? severity message fields := rfl

end Log

/-- The log of the world has got more records, and is the same otherwise. -/
def Logs {H : Type} (m m' : Machine H World) : Prop :=
  ∃ records, m'.world.log = m.world.log.withRecords records

namespace Session

variable {E : Type}

theorem logs_of_same {H : Type} {m m' : Machine H World} (h : m'.world.log = m.world.log) : Logs m m' :=
  ⟨[], by rw [h, Log.withRecords_nil]⟩

theorem writing_logs {H : Type} : Writing (Logs (H := H)) where
  refl _ := logs_of_same rfl
  trans := by
    rintro a b c ⟨records, hrecords⟩ ⟨more, hmore⟩
    exact ⟨records ++ more, by rw [hmore, hrecords, Log.withRecords_append]⟩
  table _ _ _ _ := logs_of_same rfl
  newTable _ _ _ := logs_of_same rfl
  function _ _ := logs_of_same rfl
  locals _ _ := logs_of_same rfl
  fault _ _ := logs_of_same rfl
  others _ _ := logs_of_same rfl
  frames _ _ := logs_of_same rfl
  input _ _ := logs_of_same rfl
  output _ _ := logs_of_same rfl
  log _ _ _ _ := ⟨_, Log.add_eq _ _ _ _⟩

/-- Whatever is called in a session, the log only grows. -/
theorem invoke_logs (extension : Extension E) : Calls Logs (engine extension).invoke :=
  invoke_within writing_logs (fun hinvoke tables _ =>
    Module.require_within { writing_logs.toServing with note := fun _ _ => logs_of_same rfl } hinvoke
      tables) extension

end Session

/-! ## Stages -/

namespace Setup

variable {E : Type} {invoke : Invoke (Service E) World} {file : SourceFile}
  {m m' : Machine (Service E) World}

/-- The part of one script: the machine that it finds, why it fails if it does, and the machine that it
leaves. -/
structure Stage (E : Type) where
  file : SourceFile
  start : Machine (Service E) World
  error? : Option String
  finish : Machine (Service E) World

/-- The name of the chunk of a script. -/
def chunkName (file : SourceFile) : String := s!"@{file.name}"

/-- What the compiler makes of a script. -/
def compiled (file : SourceFile) : Except Chunk.Refusal Function :=
  Chunk.compile (chunkName file).toUTF8 Chunk.textMode (Chunk.stripPreamble file.code.toUTF8)

/-- A script compiles, and its function is made. -/
def Makes (file : SourceFile) (m : Machine (Service E) World) (f : Value)
    (m' : Machine (Service E) World) : Prop :=
  Chunk.nameFault? (chunkName file) = none ∧ ∃ function, compiled file = .ok function ∧
    (Run.newChunk (chunkName file).toUTF8 function (.table m.globals)).run m = .ok f m'

namespace Stage

/-- How a script ends. One that does not compile leaves all as it is. The function of one that compiles is
called once, and whatever that has done remains, even if the call fails. -/
inductive Ends (invoke : Invoke (Service E) World) : Stage E → Prop
  | badName {file : SourceFile} {m : Machine (Service E) World} {fault : Fault}
      (hname : Chunk.nameFault? (chunkName file) = some fault) :
      Ends invoke ⟨file, m, some fault.message, m⟩
  | refused {file : SourceFile} {m : Machine (Service E) World} {refusal : Chunk.Refusal}
      (hname : Chunk.nameFault? (chunkName file) = none) (hcompile : compiled file = .error refusal) :
      Ends invoke ⟨file, m, some refusal.fault.message, m⟩
  | fails {file : SourceFile} {m m₁ m' : Machine (Service E) World} {f : Value} {fault : Fault}
      (hmakes : Makes file m f m₁) (hcall : (callGuarded invoke f []).run m₁ = .ok (.error fault) m') :
      Ends invoke ⟨file, m, some fault.message, m'⟩
  | returns {file : SourceFile} {m m₁ m' : Machine (Service E) World} {f : Value}
      {results : List Value} (hmakes : Makes file m f m₁)
      (hcall : (callGuarded invoke f []).run m₁ = .ok (.ok results) m') :
      Ends invoke ⟨file, m, none, m'⟩

/-- What is noted of a script that fails. -/
def failure? (s : Stage E) : Option PreInitFailure := s.error?.map fun error => ⟨s.file.name, error⟩

/-- What is logged of a script that fails. -/
def fields (s : Stage E) (error : String) : List (String × Datum) :=
  [("error", .text error), ("script", .text s.file.name)]

/-- The machine that the next script finds: what this one has left, with its failure logged. -/
def next (s : Stage E) : Machine (Service E) World :=
  match s.error? with
  | none => s.finish
  | some error => { s.finish with
      world.log := s.finish.world.log.add .error "loading preinit" (s.fields error) }

/-- The records that the script itself has made. -/
def ownRecords (s : Stage E) : List Record :=
  s.finish.world.log.records.drop s.start.world.log.records.length

/-- The record that a log makes of the failure of the script. -/
def record? (s : Stage E) (log : Log) : Option Record :=
  s.error?.bind fun error => log.recordOf? .error "loading preinit" (s.fields error)

end Stage

/-- Stages that follow each other from one machine to another. -/
def Follow : Machine (Service E) World → List (Stage E) → Machine (Service E) World → Prop
  | m, [], m' => m' = m
  | m, s :: rest, m' => s.start = m ∧ Follow s.next rest m'

/-- A script compiles, and the call of its function is given up. -/
def Endless (invoke : Invoke (Service E) World) (file : SourceFile) (m : Machine (Service E) World) :
    Prop :=
  ∃ f m₁ stop m', Makes file m f m₁ ∧ (callGuarded invoke f []).run m₁ = .error stop m'

/-! ## One script -/

theorem loadSource_eq : (Chunk.loadSource file).run m =
    (Chunk.load (chunkName file) file.code.toUTF8 (.table m.globals)).run m := rfl

/-- A script with a good name comes to the compiler. -/
theorem loadSource_compiles (hname : Chunk.nameFault? (chunkName file) = none) :
    (Chunk.loadSource file).run m =
      (Chunk.instantiate (chunkName file) (compiled file) (.table m.globals)).run m := by
  have hcompile : Chunk.compileText (chunkName file) (Chunk.stripPreamble file.code.toUTF8) =
      .ok (compiled file) := by
    rw [Chunk.compileText, hname]
    rfl
  rw [loadSource_eq, Chunk.load, hcompile]

/-- A script that compiles is loaded as its function. -/
theorem Makes.loadSource_run {f : Value} (h : Makes file m f m') :
    (Chunk.loadSource file).run m = .ok (.ok (.chunk f)) m' := by
  obtain ⟨hname, function, hcompile, hmade⟩ := h
  rw [loadSource_compiles hname, hcompile, Chunk.instantiate]
  exact bind_ok hmade

/-- A script that compiles fails or returns as its function does. -/
theorem Makes.runScript_run {f : Value} (h : Makes file m f m') (invoke : Invoke (Service E) World) :
    (runScript invoke file).run m = (do
      match ← callGuarded invoke f [] with
      | .error fault => return .error fault.message
      | .ok _ => return .ok () : Run (Service E) World (Except String Unit)).run m' := by
  rw [runScript, bind_ok h.loadSource_run]
  rfl

/-- A script that does not compile fails and leaves all as it is. -/
theorem runScript_uncompiled (invoke : Invoke (Service E) World) {refusal : Chunk.Refusal}
    (hname : Chunk.nameFault? (chunkName file) = none) (hcompile : compiled file = .error refusal) :
    (runScript invoke file).run m = .ok (.error refusal.fault.message) m := by
  have hload := loadSource_compiles (m := m) hname
  rw [hcompile, Chunk.instantiate] at hload
  rcases Chunk.fault_cases refusal with hfault | hfault
  · have hloaded : (Chunk.loadSource file).run m = .ok (.ok (.refused refusal)) m := by
      rw [hload, hfault]
      rfl
    rw [runScript, bind_ok hloaded]
    rfl
  · have hloaded : (Chunk.loadSource file).run m = .ok (.error (.script refusal.fault)) m := by
      rw [hload, hfault]
      rfl
    rw [runScript, bind_ok hloaded]
    rfl

/-- A script with a bad name fails and leaves all as it is. -/
theorem runScript_badName (invoke : Invoke (Service E) World) {fault : Fault}
    (hname : Chunk.nameFault? (chunkName file) = some fault) :
    (runScript invoke file).run m = .ok (.error fault.message) m := by
  have hcompile : Chunk.compileText (chunkName file) (Chunk.stripPreamble file.code.toUTF8) =
      .error fault := by
    rw [Chunk.compileText, hname]
  have hloaded : (Chunk.loadSource file).run m = .ok (.error (.script fault)) m := by
    rw [loadSource_eq, Chunk.load, hcompile]
    rfl
  rw [runScript, bind_ok hloaded]
  rfl

/-- A script ends, with an error or without one, unless the call of its function is given up. -/
theorem runScript_cases (invoke : Invoke (Service E) World) (file : SourceFile)
    (m : Machine (Service E) World) :
    (∃ error m', Stage.Ends invoke ⟨file, m, some error, m'⟩ ∧
      (runScript invoke file).run m = .ok (.error error) m') ∨
    (∃ m', Stage.Ends invoke ⟨file, m, none, m'⟩ ∧ (runScript invoke file).run m = .ok (.ok ()) m') ∨
    Endless invoke file m ∧ ∃ m', (runScript invoke file).run m = .error .exhausted m' := by
  cases hname : Chunk.nameFault? (chunkName file) with
  | some fault => exact .inl ⟨_, m, .badName hname, runScript_badName invoke hname⟩
  | none =>
    cases hcompile : compiled file with
    | error refusal =>
      exact .inl ⟨_, m, .refused hname hcompile, runScript_uncompiled invoke hname hcompile⟩
    | ok function =>
      obtain ⟨id, m₁, hmade⟩ :=
        exists_newChunk (chunkName file).toUTF8 function (.table m.globals) m
      have hmakes : Makes file m (.function id) m₁ := ⟨hname, function, hcompile, hmade⟩
      have hrun := hmakes.runScript_run invoke
      cases hcall : (callGuarded invoke (.function id) []).run m₁ with
      | error stop m' =>
        obtain rfl := exhausted_of_guarded hcall
        exact .inr (.inr ⟨⟨_, m₁, _, m', hmakes, hcall⟩, m', hrun.trans (bind_error hcall)⟩)
      | ok r m' =>
        cases r with
        | error fault => exact .inl ⟨_, m', .fails hmakes hcall, hrun.trans (bind_ok hcall)⟩
        | ok results => exact .inr (.inl ⟨m', .returns hmakes hcall, hrun.trans (bind_ok hcall)⟩)

/-! ## All scripts -/

/-- The scripts go through their stages to the end, or up to one that is given up. -/
theorem runScripts_cases (invoke : Invoke (Service E) World) (files : List SourceFile)
    (m : Machine (Service E) World) : ∃ stages m', (∀ s ∈ stages, s.Ends invoke) ∧ Follow m stages m' ∧
      (files = stages.map (·.file) ∧
        (runScripts invoke files).run m = .ok (stages.filterMap Stage.failure?) m' ∨
      ∃ file rest, files = stages.map (·.file) ++ file :: rest ∧ Endless invoke file m' ∧
        ∃ m'', (runScripts invoke files).run m = .error .exhausted m'') := by
  induction files generalizing m with
  | nil => exact ⟨[], m, by simp, rfl, .inl ⟨rfl, rfl⟩⟩
  | cons file rest ih =>
    rw [runScripts]
    obtain ⟨error, m₁, hends, hrun⟩ | ⟨m₁, hends, hrun⟩ | ⟨hendless, m₁, hrun⟩ :=
      runScript_cases invoke file m
    case inr.inr =>
      exact ⟨[], m, by simp, rfl, .inr ⟨file, rest, rfl, hendless, m₁, bind_error hrun⟩⟩
    case inl =>
      let stage : Stage E := ⟨file, m, some error, m₁⟩
      obtain ⟨stages, m', hall, hfollow, hlast⟩ := ih stage.next
      refine ⟨stage :: stages, m', List.forall_mem_cons.mpr ⟨hends, hall⟩, ⟨rfl, hfollow⟩, ?_⟩
      have hlogged : (Service.addRecord .error failureMessage
          [("error", .text error), ("script", .text file.name)] : Run (Service E) World Unit).run m₁ =
          .ok () stage.next := rfl
      rw [bind_ok hrun]
      dsimp only
      rw [bind_ok hlogged]
      rcases hlast with ⟨rfl, hrest⟩ | ⟨next, more, rfl, hendless, m₂, hrest⟩
      · exact .inl ⟨rfl, bind_ok hrest⟩
      · exact .inr ⟨next, more, rfl, hendless, m₂, bind_error hrest⟩
    case inr.inl =>
      let stage : Stage E := ⟨file, m, none, m₁⟩
      obtain ⟨stages, m', hall, hfollow, hlast⟩ := ih stage.next
      refine ⟨stage :: stages, m', List.forall_mem_cons.mpr ⟨hends, hall⟩, ⟨rfl, hfollow⟩, ?_⟩
      rw [bind_ok hrun]
      dsimp only
      rcases hlast with ⟨rfl, hrest⟩ | ⟨next, more, rfl, hendless, m₂, hrest⟩
      · exact .inl ⟨rfl, hrest⟩
      · exact .inr ⟨next, more, rfl, hendless, m₂, hrest⟩

/-! ## What is logged -/

theorem Stage.Ends.logs (hinvoke : Calls Logs invoke) {s : Stage E} (h : s.Ends invoke) :
    Logs s.start s.finish := by
  have hP := (Session.writing_logs (H := Service E)).toPermissive
  have hmade {file : SourceFile} {m m₁ : Machine (Service E) World} {f : Value}
      (hmakes : Makes file m f m₁) : Logs m m₁ := by
    obtain ⟨-, function, -, hrun⟩ := hmakes
    exact (newChunk_within hP _ function _).of_ok hrun
  cases h with
  | badName => exact hP.refl _
  | refused => exact hP.refl _
  | fails hmakes hcall =>
    exact hP.trans (hmade hmakes) ((callGuarded_within hP hinvoke _ _).of_ok hcall)
  | returns hmakes hcall =>
    exact hP.trans (hmade hmakes) ((callGuarded_within hP hinvoke _ _).of_ok hcall)

/-- What a script leaves in the log is what it has made itself. -/
theorem Stage.log_finish {s : Stage E} (h : Logs s.start s.finish) :
    s.finish.world.log = s.start.world.log.withRecords s.ownRecords := by
  obtain ⟨records, hrecords⟩ := h
  have hown : s.ownRecords = records := by
    rw [ownRecords, hrecords]
    exact List.drop_left
  rw [hown, hrecords]

/-- What the next script finds in the log is this and the record of a failure. -/
theorem Stage.log_next {s : Stage E} (h : Logs s.start s.finish) : s.next.world.log =
    s.start.world.log.withRecords (s.ownRecords ++ (s.record? s.start.world.log).toList) := by
  rw [Log.withRecords_append, ← log_finish h]
  unfold next record?
  cases s.error? with
  | none => rw [Option.bind_none, Option.toList_none, Log.withRecords_nil]
  | some error =>
    have hentry : s.finish.world.log.recordOf? .error "loading preinit" (s.fields error) =
        s.start.world.log.recordOf? .error "loading preinit" (s.fields error) := by
      rw [log_finish h, Log.recordOf?_withRecords]
    rw [Option.bind_some, ← hentry]
    exact Log.add_eq _ _ _ _

/-- The record of a failure depends on what a log keeps, and not on what is in it. -/
theorem Stage.record?_withRecords (s : Stage E) (log : Log) (records : List Record) :
    s.record? (log.withRecords records) = s.record? log := rfl

/-- In the end the log has got what the scripts have made themselves, and one record for each failure
behind what the script in question has made. -/
theorem Follow.log_eq {stages : List (Stage E)} (hlogs : ∀ s ∈ stages, Logs s.start s.finish)
    (h : Follow m stages m') : m'.world.log = m.world.log.withRecords
      (stages.flatMap fun s => s.ownRecords ++ (s.record? m.world.log).toList) := by
  induction stages generalizing m with
  | nil =>
    obtain rfl : m' = m := h
    exact (Log.withRecords_nil _).symm
  | cons s rest ih =>
    obtain ⟨rfl, hrest⟩ := h
    obtain ⟨hs, hall⟩ := List.forall_mem_cons.mp hlogs
    have hnext := s.log_next hs
    simp only [ih hall hrest, hnext, List.flatMap_cons, Log.withRecords_append,
      Stage.record?_withRecords]

end Setup

/-! ## Sessions -/

namespace Session

open Setup

variable {E : Type}

/-- What the host makes of a run depends on how the run ends, and on nothing else. -/
theorem runOn_congr {α : Type} (extension : Extension E) {m : Machine (Service E) World}
    {act act' : Invoke (Service E) World → Run (Service E) World α}
    (h : (act (engine extension).invoke).run m = (act' (engine extension).invoke).run m) :
    runOn extension m act = runOn extension m act' := by
  unfold runOn
  dsimp only
  rw [guarded_congr _ h rfl]

/-- The host has a result if the run ends well, and only then. -/
theorem runOn_ok_iff {α : Type} {extension : Extension E} {m m' : Machine (Service E) World} {a : α}
    {act : Invoke (Service E) World → Run (Service E) World α} :
    runOn extension m act = (.ok a, m') ↔ (act (engine extension).invoke).run m = .ok a m' := by
  unfold runOn
  dsimp only
  constructor
  · intro h
    split at h
    case h_1 hguarded =>
      obtain ⟨⟨⟩, rfl⟩ := Prod.mk.inj h
      exact run_of_guarded hguarded
    case h_2 => cases h
    case h_3 => cases h
  · intro h
    rw [guarded_ok _ h]

theorem runOn_exhausted {α : Type} {extension : Extension E} {m m' : Machine (Service E) World}
    {act : Invoke (Service E) World → Run (Service E) World α}
    (h : (act (engine extension).invoke).run m = .error .exhausted m') :
    runOn extension m act = (.error .endless, m') := by
  unfold runOn
  dsimp only
  rw [Run.guarded, bind_error (protect_exhausted h)]

/-- What is set up before the scripts is all that decides whether a session can be created. -/
theorem create_of_error {extension : Extension E} {e : Environment E} {x : Error}
    (h : create extension { e with preInit := [] } = .error x) : create extension e = .error x := by
  cases hinstall : (install (engine extension).invoke e.searchPath e.hostLibraries).run
      (.fresh e.world) with
  | error stop m =>
    have hstop : (preparation e (engine extension).invoke).run (.fresh e.world) = .error stop m :=
      bind_error hinstall
    have hnone : (preparation { e with preInit := [] } (engine extension).invoke).run
        (.fresh e.world) = .error stop m := bind_error hinstall
    rw [create_eq] at h ⊢
    rwa [runOn_congr extension (hstop.trans hnone.symm)]
  | ok u m =>
    have hnone : (preparation { e with preInit := [] } (engine extension).invoke).run
        (.fresh e.world) = .ok [] m := bind_ok hinstall
    rw [create_eq, runOn_ok_iff.mpr hnone] at h
    cases h

/-- A session without scripts is what the setup has led to. -/
theorem install_of_create {extension : Extension E} {e : Environment E} {s₀ : Session E}
    (h : create extension { e with preInit := [] } = .ok s₀) :
    (install (engine extension).invoke e.searchPath e.hostLibraries).run (.fresh e.world) =
      .ok () s₀.machine := by
  obtain ⟨failures, hrun⟩ := runOn_of_create h
  obtain ⟨u, m, hinstall, hnone⟩ := exists_of_bind (runOn_ok_iff.mp hrun)
  cases hnone
  exact hinstall

/-- A session is created with scripts as it is without them, and then each script goes through its stage
in turn, from the machine that the one before has left, with all that this one has done whether it has
failed or not. The session has a failure for each script that has failed, in this order, and its log has
got one record for each, besides those that the scripts have made themselves. Only a script that does not
end is in the way of a session. -/
theorem create_runs_scripts (extension : Extension E) (e : Environment E) :
    match create extension { e with preInit := [] } with
    | .error x => create extension e = .error x
    | .ok s₀ => ∃ stages m,
        (∀ s ∈ stages, s.Ends (engine extension).invoke ∧
          s.finish.world.log = s.start.world.log.withRecords s.ownRecords) ∧
        Follow s₀.machine stages m ∧
        m.world.log = s₀.machine.world.log.withRecords
          (stages.flatMap fun s => s.ownRecords ++ (s.record? s₀.machine.world.log).toList) ∧
        (stages.map (·.file) = e.preInit ∧
            create extension e = .ok ⟨extension, m, stages.filterMap Stage.failure?⟩ ∨
          ∃ file rest, e.preInit = stages.map (·.file) ++ file :: rest ∧
            Endless (engine extension).invoke file m ∧ create extension e = .error .endless) := by
  split
  case h_1 x h => exact create_of_error h
  case h_2 s₀ h =>
    obtain ⟨stages, m, hends, hfollow, hlast⟩ :=
      runScripts_cases (engine extension).invoke e.preInit s₀.machine
    have hlogs (s : Stage E) (hs : s ∈ stages) : Logs s.start s.finish :=
      (hends s hs).logs (invoke_logs extension)
    refine ⟨stages, m, fun s hs => ⟨hends s hs, Stage.log_finish (hlogs s hs)⟩, hfollow,
      hfollow.log_eq hlogs, ?_⟩
    rw [create_eq]
    rcases hlast with ⟨hfiles, hrun⟩ | ⟨file, rest, hfiles, hendless, m', hrun⟩
    · have hall : (preparation e (engine extension).invoke).run (.fresh e.world) =
          .ok (stages.filterMap Stage.failure?) m := (bind_ok (install_of_create h)).trans hrun
      rw [runOn_ok_iff.mpr hall]
      exact .inl ⟨hfiles.symm, rfl⟩
    · have hall : (preparation e (engine extension).invoke).run (.fresh e.world) =
          .error .exhausted m' := (bind_ok (install_of_create h)).trans hrun
      rw [runOn_exhausted hall]
      exact .inr ⟨file, rest, hfiles, hendless, rfl⟩

end Session
end Sandbox
