import Sandbox.Proofs.Chunk.Refusal
import Sandbox.Proofs.Script.Run
import Sandbox.Session.Basic

/-!
# Ways in

Whoever turns bytes into code gets none for a source that does not compile: `load` and `loadfile` answer
with nil and the reason, and the others fail. `Unmoved` says that nothing else comes of it. All of this is
so on every machine, and for every way of calling functions.
-/

namespace Sandbox

open Script Script.Run

variable {H α β : Type} {m m₁ m₂ : Machine H World}

/-! ## Refusals -/

/-- Nothing has come of a run but errors. The input may have been read, and the module system has noted what
it has been asked. -/
def Unmoved (m m' : Machine H World) : Prop :=
  ∃ faults frames input history,
    m' = { m with faults, frames, world := { m.world with input, history } }

theorem Unmoved.rfl : Unmoved m m := ⟨_, _, _, _, Eq.refl _⟩

theorem Unmoved.trans (h : Unmoved m m₁) (h' : Unmoved m₁ m₂) : Unmoved m m₂ := by
  obtain ⟨_, _, _, _, rfl⟩ := h
  obtain ⟨_, _, _, _, rfl⟩ := h'
  exact ⟨_, _, _, _, Eq.refl _⟩

/-- The run fails, and nothing else comes of it. -/
def Refuses (act : Run H World α) (m : Machine H World) : Prop :=
  ∃ id m', act.run m = .error (.raised (.fault id)) m' ∧ Unmoved m m'

namespace Refuses

variable {act : Run H World α}

theorem fail (fault : Fault) : Refuses (fail fault : Run H World α) m :=
  ⟨_, _, rfl, _, _, _, _, rfl⟩

theorem bind (h : Refuses act m) (next : α → Run H World β) : Refuses (act >>= next) m := by
  obtain ⟨id, m', hrun, hsame⟩ := h
  exact ⟨id, m', bind_error hrun, hsame⟩

theorem congr {act' : Run H World α} (h : Refuses act' m) (hrun : act.run m = act'.run m) :
    Refuses act m := by
  obtain ⟨id, m', hrefuses, hsame⟩ := h
  exact ⟨id, m', hrun.trans hrefuses, hsame⟩

theorem after {next : α → Run H World β} {a : α} (hact : act.run m = .ok a m₁) (hsame : Unmoved m m₁)
    (h : Refuses (next a) m₁) : Refuses (act >>= next) m := by
  obtain ⟨id, m', hrun, hsame'⟩ := h
  exact ⟨id, m', (bind_ok hact).trans hrun, hsame.trans hsame'⟩

/-- The host gets the fault, with the frames as they were. -/
theorem guarded (h : Refuses act m) (invoke : Invoke H World) : ∃ fault m',
    (Run.guarded invoke act).run m = .ok (.error fault) m' ∧ Unmoved m m' := by
  obtain ⟨id, m', hrun, hsame⟩ := h
  refine ⟨_, _, bind_ok (protect_raised hrun), hsame.trans ⟨_, _, _, _, rfl⟩⟩

end Refuses

namespace Chunk

variable {source : ByteArray} {name : String} {scope : Value}

theorem instantiate_refused {W : Type} {refusal : Refusal} (h : refusal.fault = .grammar refusal.message)
    (name : String) (scope : Value) :
    (instantiate name (.error refusal) scope : Run H W _) = pure (.ok (.refused refusal)) := by
  rw [instantiate.eq_def]
  dsimp only
  rw [h]

/-- What a file holds, or the input if no file is named. -/
def Holds (w : World) (file : Option String) (source : ByteArray) : Prop :=
  match file.filter (· ≠ "") with
  | none => ∃ input, w.input.takeAll = .ok (source, input)
  | some file => w.readFile file = .ok source

/-- The name of the chunk in a file. -/
def nameIn (file : Option String) : String :=
  match file.filter (· ≠ "") with
  | none => s!"={inputName}"
  | some file => s!"@{file}"

/-- The bytes of a file of the store, or of the input if no file is named. -/
def readSource (file : Option String) : Run H World (Except LoadError ByteArray) :=
  match file.filter (· ≠ "") with
  | none => readInput
  | some name => readFile name

/-- The error of the loader for a file that cannot be read. -/
def readFault (name : String) : World.ReadError → LoadError
  | .opening cause => .opening name cause
  | .reading cause => .reading name cause

theorem readFile_run_eq (name : String) :
    (readFile name).run m = .ok ((m.world.readFile name).mapError (readFault name)) m := by
  rw [readFile, bind_ok get_run]
  rcases m.world.readFile name with (cause | cause) | source <;> rfl

theorem readFile_run {file : String} (h : m.world.readFile file = .ok source) :
    (readFile file).run m = .ok (.ok source) m := by
  rw [readFile_run_eq, h]
  rfl

theorem readInput_run {input : Input} (h : m.world.input.takeAll = .ok (source, input)) :
    (readInput : Run H World _).run m = .ok (.ok source) { m with world := { m.world with input } } := by
  rw [readInput, bind_ok get_run, h]
  rfl

theorem readSource_run {file : Option String} (h : Holds m.world file source) :
    ∃ m', Unmoved m m' ∧ (readSource file).run m = .ok (.ok source) m' := by
  unfold Holds at h
  unfold readSource
  cases hfile : file.filter (· ≠ "") with
  | none =>
    rw [hfile] at h
    obtain ⟨input, hinput⟩ := h
    exact ⟨_, ⟨_, _, _, _, rfl⟩, readInput_run hinput⟩
  | some name =>
    rw [hfile] at h
    exact ⟨m, .rfl, readFile_run h⟩

/-- A file that is to be loaded in one of the modes is read first. -/
theorem loadFile_eq {file mode : Option String} (hmode : acceptsMode mode = true) (scope : Value) :
    (loadFile file mode scope : Run H World _) = (do
      match ← readSource file with
      | .error e => return .error e
      | .ok source => load (nameIn file) source scope) := by
  unfold loadFile readSource nameIn
  rw [hmode, if_neg (by simp)]
  cases file.filter (· ≠ "") with
  | none => rfl
  | some name => rfl

theorem loadFile_run {file : Option String} (h : Holds m.world file source) {mode : Option String}
    (hmode : acceptsMode mode = true) (scope : Value) :
    ∃ m', Unmoved m m' ∧
      (loadFile file mode scope).run m = (load (nameIn file) source scope).run m' := by
  obtain ⟨m', hsame, hread⟩ := readSource_run h
  exact ⟨m', hsame, by rw [loadFile_eq hmode, bind_ok hread]⟩

end Chunk

/-! ## Services -/

namespace Service

open Chunk

/-- What `loadfile` answers when a file has been loaded. -/
def loadFileAnswer : Except LoadError Loaded → Run H World (List Value)
  | .ok (.chunk f) => return [f, .nil]
  | .ok (.refused refusal) => return [.nil, .ofString refusal.message]
  | .error e => Run.fail (.host e.message)

/-- What `dofile` answers then; it calls the function. -/
def runFileAnswer (invoke : Invoke H World) : Except LoadError Loaded → Run H World (List Value)
  | .error e => Run.fail (.host e.message)
  | .ok loaded => do
    let f ← Run.orFail loaded.toFunction
    Run.orFail (← Run.callGuarded invoke f [])

variable {source : ByteArray} {values : List Value} {file mode : Option String}

theorem loadFileFor_run_eq {scope : Option Nat}
    (harguments : loadArguments values = .ok (file, mode, scope)) : (loadFileFor values).run m =
      (Chunk.loadFile file mode (.table (scope.getD m.globals)) >>= loadFileAnswer).run m := by
  rw [loadFileFor, bind_ok (orFail_run harguments)]
  dsimp only
  rw [bind_ok get_run]
  rfl

theorem runFileFor_run_eq
    (hargument : Value.hostArgument (Value.toHostOption Value.toHostText) values 1 = .ok file)
    (invoke : Invoke H World) : (runFileFor invoke values).run m =
      (Chunk.loadFile file none (.table m.globals) >>= runFileAnswer invoke).run m := by
  rw [runFileFor, bind_ok (orFail_run hargument), bind_ok get_run]
  rfl

end Service

/-! ## Modules -/

namespace Searcher

open Chunk

variable {source : ByteArray} {name : String}

end Searcher

namespace Module

open Chunk

variable {name trail : String} {source : ByteArray} {tables : ModuleTables} {rest : List Searcher}

end Module

/-! ## Scripts of the host -/

namespace Setup

open Chunk

end Setup

namespace Session

open Chunk

variable {E : Type}

/-- The answer of a session is an error, and nothing else comes of it. -/
def Denies (s : Session E) (answer : Except Error α × Session E) : Prop :=
  (∃ e, answer.1 = .error e) ∧ Unmoved s.machine answer.2.machine

theorem Denies.bind {s : Session E} {answer : Except Error α × Session E} (h : s.Denies answer)
    (next : α → Except Error β) : s.Denies (answer.1.bind next, answer.2) := by
  obtain ⟨⟨e, he⟩, hsame⟩ := h
  exact ⟨⟨e, by rw [he]; rfl⟩, hsame⟩

/-- What a session makes of a file that has been loaded. The output is flushed when the function has
returned. -/
def fileAnswer (invoke : Invoke (Service E) World) (arguments : List String) :
    Except LoadError Loaded → Run (Service E) World (Except LoadError (List Value))
  | .error e => return .error e
  | .ok loaded => do
    let f ← Run.orFail loaded.toFunction
    let values ← invoke none f (arguments.map Value.ofString)
    match (← get).world.output.flush with
    | .ok () => return .ok values
    | .error flaw => Run.fail (.host flaw)

theorem fileResults_run_eq {m : Machine (Service E) World} (invoke : Invoke (Service E) World)
    (file : String) (arguments : List String) : (fileResults invoke file arguments).run m =
      (loadFile (some file) none (.table m.globals) >>= fileAnswer invoke arguments).run m := by
  rw [fileResults, bind_ok get_run]
  rfl

end Session

end Sandbox
