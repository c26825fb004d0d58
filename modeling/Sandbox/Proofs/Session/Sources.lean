import Sandbox.Proofs.Chunk.Lines
import Sandbox.Proofs.Session.Files

/-!
# Sources in a session

A source may be a file that is loaded or run, the input, a module from the library or from the search path,
or a script that comes before all others. `Session.ComesAs` says that in all these cases the compiler gets a
certain text for it, and nothing else of the source. This is the one text that keeps the lines of the source,
so that what errors say of lines is true of the file.
-/

namespace Sandbox

open Script Script.Run

namespace Chunk

variable {H W α : Type}

/-- Makes a function of a text that comes to the compiler with all its bytes. -/
def loadWhole (name : String) (text : ByteArray) (scope : Value) : Run H W (Except LoadError Loaded) :=
  match compileText name text with
  | .error fault => return .error (.script fault)
  | .ok compiled => instantiate name compiled scope

/-- To load a source is to load what keeps its lines. -/
theorem load_eq_loadWhole (name : String) (source : ByteArray) (scope : Value) :
    (load name source scope : Run H W _) = loadWhole name (stripPreamble source) scope := rfl

/-- A run goes on from what the loader makes of the text. -/
theorem Reads.bind_run {m : Machine H World} {w' : World} {file mode : Option String}
    {source : ByteArray} (h : Reads m.world file (.ok source) w') (hmode : acceptsMode mode = true)
    (scope : Value) (next : Except LoadError Loaded → Run H World α) :
    (loadFile file mode scope >>= next).run m =
      (loadWhole (nameIn file) (stripPreamble source) scope >>= next).run { m with world := w' } := by
  rw [EStateM.run_bind, EStateM.run_bind, h.loadFile_run hmode, load_eq_loadWhole]

end Chunk

/-- How a script ends that comes before all others. -/
def Setup.scriptAnswer {E : Type} (invoke : Invoke (Service E) World) :
    Except Chunk.LoadError Chunk.Loaded → Run (Service E) World (Except String Unit)
  | .error e => return .error e.message
  | .ok loaded =>
    match loaded.toFunction with
    | .error fault => return .error fault.message
    | .ok f => do
      match ← Run.callGuarded invoke f [] with
      | .error fault => return .error fault.message
      | .ok _ => return .ok ()

namespace Session

variable {E : Type}

/-- Runs a text that comes to the compiler with all its bytes, as a file is run. -/
def runWhole (s : Session E) (name : String) (text : ByteArray) (arguments : List String) :
    Except Error (List Value) × Session E :=
  let (r, s) := s.perform fun invoke => do
    Chunk.loadWhole name text (.table (← get).globals) >>= fileAnswer invoke arguments
  (r.bind fun values => values.mapError .load, s)

/-- What a session performs depends on how the run ends and on the frames around it. -/
theorem perform_congr {α : Type} {s : Session E} {m : Machine (Service E) World}
    {act act' : Invoke (Service E) World → Run (Service E) World α}
    (h : ∀ invoke, (act invoke).run s.machine = (act' invoke).run m) (hframes : m.frames = s.machine.frames) :
    s.perform act = { s with machine := m }.perform act' := by
  unfold perform runOn
  dsimp only
  rw [guarded_congr _ (h _) hframes]

/-- To run a file is to run the text that its bytes leave. -/
theorem runFile_reads {s : Session E} {file : String} {source : ByteArray} {w' : World}
    (h : Chunk.Reads s.world (some file) (.ok source) w') (arguments : List String) :
    s.runFile file arguments = { s with machine := { s.machine with world := w' } }.runWhole
      (Chunk.nameIn (some file)) (Chunk.stripPreamble source) arguments := by
  have hresults (invoke : Invoke (Service E) World) :
      (fileResults invoke file arguments).run s.machine = (do
        Chunk.loadWhole (Chunk.nameIn (some file)) (Chunk.stripPreamble source)
          (.table (← get).globals) >>= fileAnswer invoke arguments :
        Run (Service E) World _).run { s.machine with world := w' } := by
    rw [fileResults_run_eq, bind_ok get_run]
    exact h.bind_run rfl _ _
  rw [runFile, perform_congr hresults rfl]
  rfl

/-! ## Ways in -/

/-- Wherever the source comes in, the compiler gets the text, and the run goes on from the answer. -/
structure ComesAs (extension : Extension E) (source text : ByteArray) : Prop where
  /-- `loadfile` reads the source from a file, or from the input if no file is named. -/
  loadFile : ∀ {invoke} {m : Machine (Service E) World} {values file mode scope w'},
    Service.loadArguments values = .ok (file, mode, scope) → Chunk.acceptsMode mode = true →
      Chunk.Reads m.world file (.ok source) w' →
        (Service.loadFile.run extension invoke values).run m =
          (Chunk.loadWhole (Chunk.nameIn file) text (.table (scope.getD m.globals)) >>=
            Service.loadFileAnswer).run { m with world := w' }
  /-- So does `dofile`. -/
  runFile : ∀ {invoke} {m : Machine (Service E) World} {values file w'},
    Value.hostArgument (Value.toHostOption Value.toHostText) values 1 = .ok file →
      Chunk.Reads m.world file (.ok source) w' →
        (Service.runFile.run extension invoke values).run m =
          (Chunk.loadWhole (Chunk.nameIn file) text (.table m.globals) >>=
            Service.runFileAnswer invoke).run { m with world := w' }
  /-- And so does the host. -/
  hostFile : ∀ {s : Session E} {file w'}, Chunk.Reads s.world (some file) (.ok source) w' →
    ∀ arguments, s.runFile file arguments =
      { s with machine := { s.machine with world := w' } }.runWhole
        (Chunk.nameIn (some file)) text arguments
  /-- `require` finds the source in the library of the world. -/
  library : ∀ {invoke} {m : Machine (Service E) World} {tables name file},
    m.world.library.lookup name = some file → file.code.toUTF8 = source →
      (Searcher.search invoke tables .library name).run m =
        (Chunk.loadWhole s!"@{file.name}" text (.table m.globals) >>=
          Searcher.foundIn name file.name).run m
  /-- Or it finds the source on the search path. -/
  path : ∀ {invoke} {m m₁ : Machine (Service E) World} {tables name path file},
    (Searcher.currentPath invoke tables).run m = .ok path m₁ →
      SearchPath.search (m₁.world.storage.opens m₁.world.store)
        (SearchPath.candidates name path Searcher.separators.1 Searcher.separators.2) = .ok file →
      m₁.world.readFile file = .ok source →
        (Searcher.search invoke tables .path name).run m =
          (Chunk.loadWhole s!"@{file}" text (.table m₁.globals) >>= Searcher.foundIn name file).run m₁
  /-- The source is a script that comes before all others. -/
  preInit : ∀ {invoke} {m : Machine (Service E) World} {file : SourceFile}, file.code.toUTF8 = source →
    (Setup.runScript invoke file).run m =
      (Chunk.loadWhole s!"@{file.name}" text (.table m.globals) >>= Setup.scriptAnswer invoke).run m

/-- The compiler gets the source without its preamble. -/
theorem comesAs_stripPreamble (extension : Extension E) (source : ByteArray) :
    ComesAs extension source (Chunk.stripPreamble source) := by
  constructor
  case loadFile =>
    intro invoke m values file mode scope w' harguments hmode hread
    exact (Service.loadFileFor_run_eq harguments).trans (hread.bind_run hmode _ _)
  case runFile =>
    intro invoke m values file w' hargument hread
    exact (Service.runFileFor_run_eq hargument invoke).trans (hread.bind_run rfl _ _)
  case hostFile => exact fun hread arguments => runFile_reads hread arguments
  case library =>
    rintro invoke m tables name file hfile rfl
    change (Searcher.searchLibrary name).run m = _
    rw [Searcher.searchLibrary, bind_ok get_run, hfile]
    rfl
  case path =>
    intro invoke m m₁ tables name path file hpath hsearch hfile
    have hstored : (Searcher.loadStored file).run m₁ =
        (Chunk.loadWhole s!"@{file}" (Chunk.stripPreamble source) (.table m₁.globals)).run m₁ :=
      (bind_ok (Chunk.readFile_run hfile)).trans (bind_ok get_run)
    change (Searcher.searchStore invoke tables name).run m = _
    rw [Searcher.searchStore, bind_ok hpath, bind_ok get_run]
    dsimp only
    rw [hsearch, EStateM.run_bind, EStateM.run_bind, hstored]
  case preInit =>
    rintro invoke m file rfl
    rfl

/-- Sources keep the numbers of their lines. Whatever its bytes are, just one text keeps the lines of a
source, and this text is what the compiler gets of it, wherever the source comes in. -/
theorem sources_keep_lines (extension : Extension E) (source : ByteArray) :
    (∀ text : ByteArray,
      Chunk.KeepsLines source.toList text.toList ↔ text = Chunk.stripPreamble source) ∧
    ComesAs extension source (Chunk.stripPreamble source) :=
  ⟨fun _ => Chunk.keepsLines_iff, comesAs_stripPreamble extension source⟩

/-- A script with a mark and a line for a shell in front. -/
def shellScript : ByteArray := ⟨Chunk.byteOrderMark.toArray⟩ ++ "#!/bin/lua\n\nboom()".toUTF8

/-- A session with this script in its store. -/
def shelled : Session Empty where
  extension := nofun
  machine := { world := { storage := { memories := #[⟨[(["script.lua"], ⟨shellScript, .epoch⟩)]⟩] },
                          store := .memory 0 } }

/-- The error of the script names the line of the file on which the call stands. -/
theorem sources_keep_lines_of_script :
    Chunk.Reads shelled.world (some "script.lua") (.ok shellScript) shelled.world ∧
    Chunk.KeepsLines shellScript.toList "\n\nboom()".toUTF8.toList ∧
    Chunk.line? shellScript.toList 3 = some "boom()".toUTF8.toList ∧
    ∃ e, (shelled.runFile "script.lua" []).1 = .error e ∧ e.message =
      "Lua error: runtime error: script.lua:3: attempt to call a nil value (global 'boom')" := by
  obtain ⟨hkeeps, hcomes⟩ := sources_keep_lines (E := Empty) nofun shellScript
  have hread : Chunk.Reads shelled.world (some "script.lua") (.ok shellScript) shelled.world :=
    .read (show (some "script.lua").filter (· ≠ "") = some "script.lua" by decide +kernel) rfl rfl
  refine ⟨hread, (hkeeps _).mpr (by decide +kernel), by decide +kernel, ?_⟩
  have hrun : shelled.runFile "script.lua" [] = shelled.runWhole (Chunk.nameIn (some "script.lua"))
      (Chunk.stripPreamble shellScript) [] := hcomes.hostFile hread []
  have hmessage : (tryCatch ((shelled.runWhole (Chunk.nameIn (some "script.lua"))
      (Chunk.stripPreamble shellScript) []).1.map fun _ => none) fun e => .ok (some e.message)).toOption =
        some (some
          "Lua error: runtime error: script.lua:3: attempt to call a nil value (global 'boom')") := by
    decide +kernel
  rw [← hrun] at hmessage
  cases hanswer : (shelled.runFile "script.lua" []).1 with
  | ok values =>
    rw [hanswer] at hmessage
    cases hmessage
  | error e =>
    rw [hanswer] at hmessage
    exact ⟨e, rfl, Option.some.inj (Option.some.inj hmessage)⟩

end Session

end Sandbox
