import Mathlib.Data.List.TakeWhile
import Sandbox.Proofs.Chunk.Door

/-!
# How the loading of a file ends

What comes of a file is decided in a fixed order: by the mode, by the bytes that are read, and by the
compiler. `Chunk.Ends` says how, without running anything, and the loader answers what it says.
-/

namespace Sandbox

open Script Script.Run

/-- What compiles becomes a function. -/
theorem exists_newChunk {H W : Type} (name : ByteArray) (f : Function) (scope : Value)
    (m : Machine H W) : ∃ id m', (Run.newChunk name f scope : Run H W Value).run m =
      .ok (.function id) m' :=
  ⟨_, _, rfl⟩

namespace Chunk

variable {H : Type} {m : Machine H World} {w w' : World} {file mode : Option String}

/-! ## What is read -/

/-- What is read of a file, or of the input if no file is named, and the world afterwards. Reading the
input takes all that is left of it; reading a file leaves the world as it is. -/
inductive Reads (w : World) (file : Option String) : Except LoadError ByteArray → World → Prop
  | input (hfile : file.filter (· ≠ "") = none) (hflaw : w.input.flaw = none) :
      Reads w file (.ok w.input.rest) { w with input := { w.input with rest := .empty } }
  | brokenInput {flaw : String} (hfile : file.filter (· ≠ "") = none)
      (hflaw : w.input.flaw = some flaw) : Reads w file (.error (.reading "stdin" flaw)) w
  | unopened {name : String} {cause : Store.Error} (hfile : file.filter (· ≠ "") = some name)
      (hopen : w.storage.openRead w.store name = .error cause) :
      Reads w file (.error (.opening name cause)) w
  | unread {name : String} {reader : Storage.Reader} {refusal : Disk.Refusal}
      (hfile : file.filter (· ≠ "") = some name)
      (hopen : w.storage.openRead w.store name = .ok reader)
      (hread : w.storage.readAll reader = .error refusal) :
      Reads w file (.error (.reading name refusal.message)) w
  | read {name : String} {reader : Storage.Reader} {source : ByteArray}
      (hfile : file.filter (· ≠ "") = some name)
      (hopen : w.storage.openRead w.store name = .ok reader)
      (hread : w.storage.readAll reader = .ok source) : Reads w file (.ok source) w

theorem Reads.readSource_run {r : Except LoadError ByteArray} (h : Reads m.world file r w') :
    (readSource file).run m = .ok r { m with world := w' } := by
  unfold readSource
  cases h with
  | input hnone hflaw =>
    rw [hnone]
    apply readInput_run
    simp [Input.takeAll, hflaw]
  | brokenInput hnone hflaw =>
    rw [hnone]
    change readInput.run m = _
    rw [readInput, bind_ok get_run, Input.takeAll, hflaw]
    rfl
  | unopened hsome hopen =>
    rw [hsome]
    refine (readFile_run_eq _).trans ?_
    rw [World.readFile, hopen]
    rfl
  | unread hsome hopen hread =>
    rw [hsome]
    refine (readFile_run_eq _).trans ?_
    rw [World.readFile, hopen]
    change EStateM.Result.ok (((m.world.storage.readAll _).mapError _).mapError _) m = _
    rw [hread]
    rfl
  | read hsome hopen hread =>
    rw [hsome]
    refine (readFile_run_eq _).trans ?_
    rw [World.readFile, hopen]
    change EStateM.Result.ok (((m.world.storage.readAll _).mapError _).mapError _) m = _
    rw [hread]
    rfl

/-- What has been read as a whole is loaded. -/
theorem Reads.loadFile_run {source : ByteArray} (h : Reads m.world file (.ok source) w')
    (hmode : acceptsMode mode = true) (scope : Value) : (loadFile file mode scope).run m =
      (load (nameIn file) source scope).run { m with world := w' } := by
  rw [loadFile_eq hmode, bind_ok h.readSource_run]

/-! ## What comes of it -/

/-- What comes of a file that is to be loaded. -/
inductive Outcome
  /-- There is an error. -/
  | failed (e : LoadError)
  /-- It does not compile. -/
  | refused (refusal : Refusal)
  | compiled (f : Function)

/-- How the loading of a file in a mode ends, and the world afterwards. The mode is looked at before
anything is read, and only what has been read as a whole comes to the compiler. A source that is nested
too deep is an error, and no answer of the compiler. -/
inductive Ends (w : World) (file mode : Option String) : Outcome → World → Prop
  | badMode (hmode : acceptsMode mode = false) :
      Ends w file mode (.failed (.badMode (mode.getD ""))) w
  | notRead {e : LoadError} {w' : World} (hmode : acceptsMode mode = true)
      (hread : Reads w file (.error e) w') : Ends w file mode (.failed e) w'
  | tooDeep {source : ByteArray} {refusal : Refusal} {w' : World} (hmode : acceptsMode mode = true)
      (hread : Reads w file (.ok source) w')
      (hcompile : compile (nameIn file).toUTF8 textMode (stripPreamble source) = .error refusal)
      (hfault : refusal.fault = .runtime Flaw.Cause.tooDeep.message) :
      Ends w file mode (.failed (.script (.runtime Flaw.Cause.tooDeep.message))) w'
  | refused {source : ByteArray} {refusal : Refusal} {w' : World} (hmode : acceptsMode mode = true)
      (hread : Reads w file (.ok source) w')
      (hcompile : compile (nameIn file).toUTF8 textMode (stripPreamble source) = .error refusal)
      (hfault : refusal.fault = .grammar refusal.message) : Ends w file mode (.refused refusal) w'
  | compiled {source : ByteArray} {f : Function} {w' : World} (hmode : acceptsMode mode = true)
      (hread : Reads w file (.ok source) w')
      (hcompile : compile (nameIn file).toUTF8 textMode (stripPreamble source) = .ok f) :
      Ends w file mode (.compiled f) w'

/-- A refusal is a fault of grammar, or the source is nested too deep. -/
theorem fault_cases (refusal : Refusal) : refusal.fault = .grammar refusal.message ∨
    refusal.fault = .runtime Flaw.Cause.tooDeep.message := by
  unfold Refusal.fault
  split
  case h_1 => exact .inr rfl
  case h_2 => exact .inl rfl

/-- The answer of the loader to what has come of a file. -/
def Outcome.loaded (name : String) (scope : Value) : Outcome → Run H World (Except LoadError Loaded)
  | .failed e => return .error e
  | .refused refusal => return .ok (.refused refusal)
  | .compiled f => return .ok (.chunk (← Run.newChunk name.toUTF8 f scope))

/-- The loader answers what has come of the file. -/
theorem Ends.loadFile_run {outcome : Outcome} (h : Ends m.world file mode outcome w')
    (hname : nameFault? (nameIn file) = none) (scope : Value) :
    (loadFile file mode scope).run m =
      (outcome.loaded (nameIn file) scope).run { m with world := w' } := by
  have hload {source : ByteArray} {r : Except Refusal Function}
      (hcompile : compile (nameIn file).toUTF8 textMode (stripPreamble source) = r) :
      (load (nameIn file) source scope : Run H World _) = instantiate (nameIn file) r scope := by
    rw [load, compileText, hname, hcompile]
  cases h with
  | badMode hmode =>
    rw [loadFile, hmode]
    rfl
  | notRead hmode hread =>
    rw [loadFile_eq hmode, bind_ok hread.readSource_run]
    rfl
  | tooDeep hmode hread hcompile hfault =>
    rw [hread.loadFile_run hmode, hload hcompile, instantiate.eq_def]
    dsimp only
    rw [hfault]
    rfl
  | refused hmode hread hcompile hfault =>
    rw [hread.loadFile_run hmode, hload hcompile, instantiate_refused hfault]
    rfl
  | compiled hmode hread hcompile =>
    rw [hread.loadFile_run hmode, hload hcompile]
    rfl

end Chunk
end Sandbox
