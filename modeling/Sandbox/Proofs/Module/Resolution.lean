import Sandbox.Proofs.Module.Cache

/-!
# The resolution of modules

`Searcher.Answers` says what each searcher makes of a module, by what it finds in the place where it
looks. `Module.Resolves` follows the searchers until one of them does not answer that it knows nothing,
and the outcome of `require` for a module that is not there is that of this verdict.
-/

namespace Sandbox

open Script

variable {H : Type}

/-- How a search for a module ends. -/
inductive Verdict
  /-- Nothing is found; this is where has been looked. -/
  | missing (trail : String)
  /-- What is found is no module. -/
  | broken (fault : Fault)
  /-- A script has stopped the search. -/
  | stopped (stop : Stop)
  /-- A function that makes the module, and where it is from. -/
  | hit (loader : Value) (label : String)

namespace Verdict

/-- Nothing is found. -/
def IsMissing (verdict : Verdict) : Prop := ∃ trail, verdict = .missing trail

/-- The verdict after another place where nothing is found. -/
def behind (trail : String) : Verdict → Verdict
  | .missing more => .missing (trail ++ more)
  | verdict => verdict

/-- The verdict on a unit of code that is found in a file: its function, or why there is none. -/
def ofUnit (name file : String) : Except Chunk.LoadError Chunk.Loaded → Verdict
  | .ok (.chunk f) => .hit f file
  | .ok (.refused refusal) => .broken (.runtime
    s!"error loading module '{name}' from file '{file}':\n\t{refusal.fault.message}")
  | .error e => .broken (.runtime s!"error loading module '{name}' from file '{file}':\n\t{e.message}")

/-- A unit of code that is found is not missing. -/
theorem ofUnit_ne_missing (name file trail : String) (loaded : Except Chunk.LoadError Chunk.Loaded) :
    ofUnit name file loaded ≠ .missing trail := by
  rcases loaded with e | f | refusal <;> simp [ofUnit]

/-- The answer of a searcher with this verdict. -/
def finding : Verdict → Run H World Finding
  | .missing trail => pure (.missing trail)
  | .broken fault => Run.fail fault
  | .stopped stop => throw stop
  | .hit loader label => pure (.found loader label)

@[simp] theorem behind_behind (verdict : Verdict) (trail more : String) :
    (verdict.behind more).behind trail = verdict.behind (trail ++ more) := by
  cases verdict <;> simp [behind, String.append_assoc]

@[simp] theorem behind_empty (verdict : Verdict) : verdict.behind "" = verdict := by
  cases verdict <;> simp [behind]

theorem behind_of_not_isMissing {verdict : Verdict} (h : ¬verdict.IsMissing) (trail : String) :
    verdict.behind trail = verdict := by
  cases verdict with
  | missing more => exact absurd ⟨more, rfl⟩ h
  | _ => rfl

end Verdict

namespace Searcher

/-- The line for a file that cannot be opened. -/
def missingLine (file : String) : String := s!"\n\tno file '{file}'"

/-- The files that the templates of a search path name for a module. -/
def filesOn (path name : String) : List String :=
  (SearchPath.templates path).map (SearchPath.candidate (replaceAll ['.'] ['/'] name.toList))

/-- A file of the store can be opened. -/
def Opens (m : Machine H World) (file : String) : Prop :=
  m.world.storage.opens m.world.store file = true

/-- What a searcher makes of a module. Preloaded functions and the search path are fields of tables,
whose metatables may run scripts. -/
inductive Answers (invoke : Invoke H World) (tables : ModuleTables) (name : String)
    (m : Machine H World) : Searcher → Verdict → Machine H World → Prop
  | preloaded {m' : Machine H World} {f : Nat}
      (hfield : (Run.hostField invoke tables.preload name).run m = .ok (.function f) m') :
      Answers invoke tables name m .preload (.hit (.function f) ":preload:") m'
  | notPreloaded {m' : Machine H World}
      (hfield : (Run.hostField invoke tables.preload name).run m = .ok .nil m') :
      Answers invoke tables name m .preload
        (.missing s!"\n\tno field package.preload['{name}']") m'
  | noFunction {m' : Machine H World} {v : Value}
      (hfield : (Run.hostField invoke tables.preload name).run m = .ok v m') (hnil : v ≠ .nil)
      (hfunction : ∀ f, v ≠ .function f) :
      Answers invoke tables name m .preload (.broken (.runtime
        s!"package.preload['{name}'] must be a function, got {v.hostTypeName}")) m'
  | preloadStops {m' : Machine H World} {stop : Stop}
      (hfield : (Run.hostField invoke tables.preload name).run m = .error stop m') :
      Answers invoke tables name m .preload (.stopped stop) m'
  | notInLibrary (hlibrary : m.world.library.lookup name = none) :
      Answers invoke tables name m .library (.missing s!"\n\tno library '{name}'") m
  | inLibrary {m' : Machine H World} {file : SourceFile} {loaded : Except Chunk.LoadError Chunk.Loaded}
      (hlibrary : m.world.library.lookup name = some file)
      (hload : (Chunk.loadSource file).run m = .ok loaded m') :
      Answers invoke tables name m .library (.ofUnit name file.name loaded) m'
  | noOpenFile {m' : Machine H World} {s : ByteArray} {path : String}
      (hfield : (Run.hostField invoke tables.package "path").run m = .ok (.text s) m')
      (htext : Value.decodeText "&str" s = .ok path)
      (hclosed : ∀ file ∈ filesOn path name, ¬Opens m' file) :
      Answers invoke tables name m .path
        (.missing (String.join ((filesOn path name).map missingLine))) m'
  | openFile {m' m'' : Machine H World} {s : ByteArray} {path file : String} {before after : List String}
      {loaded : Except Chunk.LoadError Chunk.Loaded}
      (hfield : (Run.hostField invoke tables.package "path").run m = .ok (.text s) m')
      (htext : Value.decodeText "&str" s = .ok path)
      (hfiles : filesOn path name = before ++ file :: after)
      (hclosed : ∀ other ∈ before, ¬Opens m' other) (hopen : Opens m' file)
      (hload : (loadStored file).run m' = .ok loaded m'') :
      Answers invoke tables name m .path (.ofUnit name file loaded) m''
  | noPath {m' : Machine H World} {v : Value}
      (hfield : (Run.hostField invoke tables.package "path").run m = .ok v m')
      (htext : ∀ s, v ≠ .text s) :
      Answers invoke tables name m .path (.broken (.runtime "'package.path' must be a string")) m'
  | noText {m' : Machine H World} {s : ByteArray} {fault : Fault}
      (hfield : (Run.hostField invoke tables.package "path").run m = .ok (.text s) m')
      (htext : Value.decodeText "&str" s = .error fault) :
      Answers invoke tables name m .path (.broken fault) m'
  | pathStops {m' : Machine H World} {stop : Stop}
      (hfield : (Run.hostField invoke tables.package "path").run m = .error stop m') :
      Answers invoke tables name m .path (.stopped stop) m'

variable {invoke : Invoke H World} {tables : ModuleTables} {name : String}
  {m m' : Machine H World} {s : Searcher} {verdict : Verdict}

/-- A unit of code that is found decides, whether it can be loaded or not. -/
theorem foundIn_eq (file : String) (loaded : Except Chunk.LoadError Chunk.Loaded) :
    (foundIn name file loaded : Run H World Finding) = (Verdict.ofUnit name file loaded).finding := by
  rcases loaded with e | f | refusal <;> rfl

/-- No file opens, or there is a first one that does. -/
theorem closed_or_first_open (opens : String → Bool) (files : List String) :
    (∀ file ∈ files, opens file ≠ true) ∨ ∃ before file after, files = before ++ file :: after ∧
      (∀ other ∈ before, opens other ≠ true) ∧ opens file = true := by
  cases hfind : files.find? opens with
  | none => exact .inl (List.find?_eq_none.mp hfind)
  | some file =>
    obtain ⟨hopen, before, after, hfiles, hclosed⟩ := List.find?_eq_some_iff_append.mp hfind
    exact .inr ⟨before, file, after, hfiles, fun other h => by simpa using hclosed other h, hopen⟩

/-- Where no file opens, a search says what has been tried. -/
theorem search_of_closed {opens : String → Bool} {files : List String}
    (hclosed : ∀ file ∈ files, opens file ≠ true) :
    SearchPath.search opens files = .error files := by
  rw [SearchPath.search, List.find?_eq_none.mpr hclosed]

/-- The first file that opens is the answer of a search. -/
theorem search_of_open {opens : String → Bool} {file : String} {before after : List String}
    (hclosed : ∀ other ∈ before, opens other ≠ true) (hopen : opens file = true) :
    SearchPath.search opens (before ++ file :: after) = .ok file := by
  have hfind : (before ++ file :: after).find? opens = some file :=
    List.find?_eq_some_iff_append.mpr
      ⟨hopen, before, after, rfl, fun other h => by simpa using hclosed other h⟩
  rw [SearchPath.search, hfind]

/-- To load code never raises an error. -/
theorem exists_instantiate (chunk : String) (compiled : Except Chunk.Refusal Function) (scope : Value)
    (m : Machine H World) :
    ∃ loaded m', (Chunk.instantiate chunk compiled scope : Run H World _).run m = .ok loaded m' := by
  cases compiled with
  | ok f => exact ⟨_, _, rfl⟩
  | error refusal =>
    dsimp only [Chunk.instantiate]
    split <;> exact ⟨_, _, rfl⟩

theorem exists_load (chunk : String) (source : ByteArray) (scope : Value) (m : Machine H World) :
    ∃ loaded m', (Chunk.load chunk source scope : Run H World _).run m = .ok loaded m' := by
  unfold Chunk.load
  cases Chunk.compileText chunk (Chunk.stripPreamble source) with
  | error fault => exact ⟨_, _, rfl⟩
  | ok compiled => exact exists_instantiate chunk compiled scope m

theorem exists_loadSource (file : SourceFile) (m : Machine H World) :
    ∃ loaded m', (Chunk.loadSource file : Run H World _).run m = .ok loaded m' :=
  exists_load s!"@{file.name}" file.code.toUTF8 (.table m.globals) m

theorem exists_loadStored (file : String) (m : Machine H World) :
    ∃ loaded m', (loadStored file : Run H World _).run m = .ok loaded m' := by
  have hread : ∃ source, (Chunk.readFile file : Run H World _).run m = .ok source m := by
    unfold Chunk.readFile
    rw [Run.bind_ok Run.get_run]
    rcases m.world.readFile file with (cause | cause) | source <;> exact ⟨_, rfl⟩
  obtain ⟨source, hread⟩ := hread
  rw [loadStored, Run.bind_ok hread]
  cases source with
  | error e => exact ⟨_, _, rfl⟩
  | ok source => exact exists_load s!"@{file}" source (.table m.globals) m

theorem currentPath_run {s : ByteArray}
    (hfield : (Run.hostField invoke tables.package "path").run m = .ok (.text s) m') :
    (currentPath invoke tables).run m = (Run.orFail (Value.decodeText "&str" s)).run m' :=
  Run.bind_ok hfield

theorem currentPath_run_of_noText {v : Value}
    (hfield : (Run.hostField invoke tables.package "path").run m = .ok v m')
    (htext : ∀ s, v ≠ .text s) :
    (currentPath invoke tables).run m =
      (Run.fail (.runtime "'package.path' must be a string")).run m' := by
  refine (Run.bind_ok hfield).trans ?_
  split
  · exact absurd rfl (htext _)
  · rfl

theorem searchStore_run {s : ByteArray} {path : String}
    (hfield : (Run.hostField invoke tables.package "path").run m = .ok (.text s) m')
    (htext : Value.decodeText "&str" s = .ok path) :
    (searchStore invoke tables name).run m =
      (match SearchPath.search (m'.world.storage.opens m'.world.store) (filesOn path name) with
        | .error tried => return .missing (SearchPath.missingMessage tried)
        | .ok file => do foundIn name file (← loadStored file) : Run H World Finding).run m' := by
  have hcurrent : (currentPath invoke tables).run m = .ok path m' := by
    rw [currentPath_run hfield, htext]
    rfl
  rw [searchStore, Run.bind_ok hcurrent, Run.bind_ok Run.get_run]
  rfl

/-- The function of a searcher gives the answer of the searcher. -/
theorem Answers.search_eq (h : s.Answers invoke tables name m verdict m') :
    (s.search invoke tables name).run m = verdict.finding.run m' := by
  cases h with
  | preloaded hfield => exact Run.bind_ok hfield
  | notPreloaded hfield => exact Run.bind_ok hfield
  | noFunction hfield hnil hfunction =>
    refine (Run.bind_ok hfield).trans ?_
    split
    case h_1 => exact absurd rfl (hfunction _)
    case h_2 => exact absurd rfl hnil
    case h_3 => rfl
  | preloadStops hfield => exact Run.bind_error hfield
  | notInLibrary hnone =>
    change (searchLibrary name).run m = _
    rw [searchLibrary, Run.bind_ok Run.get_run, hnone]
    rfl
  | inLibrary hsome hload =>
    change (searchLibrary name).run m = _
    rw [searchLibrary, Run.bind_ok Run.get_run, hsome, ← foundIn_eq]
    exact Run.bind_ok hload
  | noOpenFile hfield htext hclosed =>
    refine (searchStore_run hfield htext).trans ?_
    rw [search_of_closed hclosed]
    rfl
  | openFile hfield htext hfiles hclosed hopen hload =>
    refine (searchStore_run hfield htext).trans ?_
    rw [hfiles, search_of_open hclosed hopen, ← foundIn_eq]
    exact Run.bind_ok hload
  | noPath hfield htext => exact Run.bind_error (currentPath_run_of_noText hfield htext)
  | noText hfield htext =>
    refine Run.bind_error ((currentPath_run hfield).trans ?_)
    rw [htext]
    rfl
  | pathStops hfield => exact Run.bind_error (Run.bind_error hfield)

/-- Every searcher has an answer. -/
theorem exists_answers (invoke : Invoke H World) (tables : ModuleTables) (name : String)
    (m : Machine H World) (s : Searcher) :
    ∃ verdict m', s.Answers invoke tables name m verdict m' := by
  cases s with
  | preload =>
    cases hfield : (Run.hostField invoke tables.preload name).run m with
    | error stop m' => exact ⟨_, _, .preloadStops hfield⟩
    | ok v m' =>
      cases v with
      | nil => exact ⟨_, _, .notPreloaded hfield⟩
      | function f => exact ⟨_, _, .preloaded hfield⟩
      | _ => exact ⟨_, _, .noFunction hfield (by simp) (by simp)⟩
  | library =>
    cases hlibrary : m.world.library.lookup name with
    | none => exact ⟨_, _, .notInLibrary hlibrary⟩
    | some file =>
      obtain ⟨loaded, m', hload⟩ := exists_loadSource file m
      exact ⟨_, _, .inLibrary hlibrary hload⟩
  | path =>
    cases hfield : (Run.hostField invoke tables.package "path").run m with
    | error stop m' => exact ⟨_, _, .pathStops hfield⟩
    | ok v m' =>
      cases v with
      | text s =>
        cases htext : Value.decodeText "&str" s with
        | error fault => exact ⟨_, _, .noText hfield htext⟩
        | ok path =>
          rcases closed_or_first_open (m'.world.storage.opens m'.world.store) (filesOn path name)
            with hclosed | ⟨before, file, after, hfiles, hclosed, hopen⟩
          · exact ⟨_, _, .noOpenFile hfield htext hclosed⟩
          · obtain ⟨loaded, m'', hload⟩ := exists_loadStored file m'
            exact ⟨_, _, .openFile hfield htext hfiles hclosed hopen hload⟩
      | _ => exact ⟨_, _, .noPath hfield (by simp)⟩

/-! ## What it takes to find nothing -/

theorem Answers.of_missing_preload {trail : String}
    (h : preload.Answers invoke tables name m (.missing trail) m') :
    (Run.hostField invoke tables.preload name).run m = .ok .nil m' ∧
      trail = s!"\n\tno field package.preload['{name}']" := by
  cases h with
  | notPreloaded hfield => exact ⟨hfield, rfl⟩

theorem Answers.of_missing_library {trail : String}
    (h : library.Answers invoke tables name m (.missing trail) m') :
    m.world.library.lookup name = none ∧ m' = m ∧ trail = s!"\n\tno library '{name}'" := by
  generalize hverdict : Verdict.missing trail = verdict at h
  cases h with
  | notInLibrary hlibrary => exact ⟨hlibrary, rfl, Verdict.missing.inj hverdict⟩
  | inLibrary => exact (Verdict.ofUnit_ne_missing _ _ _ _ hverdict.symm).elim

theorem Answers.of_missing_path {trail : String}
    (h : path.Answers invoke tables name m (.missing trail) m') :
    ∃ s path, (Run.hostField invoke tables.package "path").run m = .ok (.text s) m' ∧
      Value.decodeText "&str" s = .ok path ∧ (∀ file ∈ filesOn path name, ¬Opens m' file) ∧
      trail = String.join ((filesOn path name).map missingLine) := by
  generalize hverdict : Verdict.missing trail = verdict at h
  cases h with
  | noOpenFile hfield htext hclosed =>
    exact ⟨_, _, hfield, htext, hclosed, Verdict.missing.inj hverdict⟩
  | openFile => exact (Verdict.ofUnit_ne_missing _ _ _ _ hverdict.symm).elim
  | _ => simp at hverdict

end Searcher

namespace Module

variable {invoke : Invoke H World} {tables : ModuleTables} {name : String}
  {m m' : Machine H World} {searchers : List Searcher} {verdict : Verdict}

/-- How some searchers, asked one after the other, decide on a module: the first that finds something,
be it good or not, has the last word. -/
inductive Resolves (invoke : Invoke H World) (tables : ModuleTables) (name : String) :
    List Searcher → Machine H World → Verdict → Machine H World → Prop
  | exhausted (m : Machine H World) : Resolves invoke tables name [] m (.missing "") m
  | decided {s : Searcher} {rest : List Searcher} {m m' : Machine H World} {verdict : Verdict}
      (hanswer : s.Answers invoke tables name (m.noted (.consulted name s)) verdict m')
      (hdecides : ¬verdict.IsMissing) : Resolves invoke tables name (s :: rest) m verdict m'
  | passed {s : Searcher} {rest : List Searcher} {m m' m'' : Machine H World} {trail : String}
      {verdict : Verdict}
      (hanswer : s.Answers invoke tables name (m.noted (.consulted name s)) (.missing trail) m')
      (hrest : Resolves invoke tables name rest m' verdict m'') :
      Resolves invoke tables name (s :: rest) m (verdict.behind trail) m''

/-- What becomes of a module on which the searchers have decided. -/
def conclude (invoke : Invoke H World) (name : String) : Verdict → Run H World Value
  | .missing trail => Run.fail (.runtime s!"module '{name}' not found:{trail}")
  | .broken fault => Run.fail fault
  | .stopped stop => throw stop
  | .hit loader label => make invoke name loader label

theorem ask_run {s : Searcher}
    (hanswer : s.Answers invoke tables name (m.noted (.consulted name s)) verdict m') :
    (ask invoke tables name s).run m = verdict.finding.run m' :=
  (Run.bind_ok (note_run _)).trans hanswer.search_eq

/-- The searchers' decision is what is made of the module. -/
theorem Resolves.consult_run (h : Resolves invoke tables name searchers m verdict m') (trail : String) :
    (consult invoke tables name searchers trail).run m =
      (conclude invoke name (verdict.behind trail)).run m' := by
  induction h generalizing trail with
  | exhausted m => rw [Verdict.behind, String.append_empty]; rfl
  | @decided _ _ _ _ verdict hanswer hdecides =>
    rw [Verdict.behind_of_not_isMissing hdecides, consult]
    cases verdict with
    | missing trail => exact absurd ⟨trail, rfl⟩ hdecides
    | broken fault => exact Run.bind_error (ask_run hanswer)
    | stopped stop => exact Run.bind_error (ask_run hanswer)
    | hit loader label => exact Run.bind_ok (ask_run hanswer)
  | passed hanswer _ ih =>
    rw [consult, Run.bind_ok (ask_run hanswer), Verdict.behind_behind]
    exact ih _

/-- Searchers always come to a decision. -/
theorem exists_resolves (invoke : Invoke H World) (tables : ModuleTables) (name : String)
    (searchers : List Searcher) (m : Machine H World) :
    ∃ verdict m', Resolves invoke tables name searchers m verdict m' := by
  induction searchers generalizing m with
  | nil => exact ⟨_, _, .exhausted m⟩
  | cons s rest ih =>
    obtain ⟨verdict, m', hanswer⟩ :=
      Searcher.exists_answers invoke tables name (m.noted (.consulted name s)) s
    by_cases hmissing : verdict.IsMissing
    · obtain ⟨trail, rfl⟩ := hmissing
      obtain ⟨verdict, m'', hrest⟩ := ih m'
      exact ⟨_, _, .passed hanswer hrest⟩
    · exact ⟨_, _, .decided hanswer hmissing⟩

/-- Where nothing is found, the first searcher has found nothing, nor have the others. -/
theorem Resolves.of_missing {s : Searcher} {trail : String}
    (h : Resolves invoke tables name (s :: searchers) m (.missing trail) m') :
    ∃ first m₁ more, s.Answers invoke tables name (m.noted (.consulted name s)) (.missing first) m₁ ∧
      Resolves invoke tables name searchers m₁ (.missing more) m' ∧ trail = first ++ more := by
  generalize hverdict : Verdict.missing trail = verdict at h
  cases h with
  | decided _ hdecides => exact absurd ⟨trail, hverdict.symm⟩ hdecides
  | @passed _ _ _ m₁ _ first rest hanswer hrest =>
    cases rest with
    | missing more => exact ⟨first, m₁, more, hanswer, hrest, Verdict.missing.inj hverdict⟩
    | _ => exact absurd hverdict (by simp [Verdict.behind])

/-- A module that nobody knows is in none of the three places, and nothing has happened but that two
fields have been looked at. -/
structure Absent (invoke : Invoke H World) (tables : ModuleTables) (name trail : String)
    (m m' : Machine H World) : Prop where
  chain : ∃ m₁ s path,
    (Run.hostField invoke tables.preload name).run (m.noted (.consulted name .preload)) = .ok .nil m₁ ∧
    m₁.world.library.lookup name = none ∧
    (Run.hostField invoke tables.package "path").run
      ((m₁.noted (.consulted name .library)).noted (.consulted name .path)) = .ok (.text s) m' ∧
    Value.decodeText "&str" s = .ok path ∧
    (∀ file ∈ Searcher.filesOn path name, ¬Searcher.Opens m' file) ∧
    trail = s!"\n\tno field package.preload['{name}']" ++ s!"\n\tno library '{name}'" ++
      String.join ((Searcher.filesOn path name).map Searcher.missingLine)

theorem Resolves.absent {trail : String}
    (h : Resolves invoke tables name Searcher.all m (.missing trail) m') :
    Absent invoke tables name trail m m' := by
  obtain ⟨_, m₁, _, hpreload, hlater, rfl⟩ := h.of_missing
  obtain ⟨_, m₂, _, hlibrary, hlast, rfl⟩ := hlater.of_missing
  obtain ⟨_, m₃, _, hpath, hnone, rfl⟩ := hlast.of_missing
  obtain ⟨hpreloaded, rfl⟩ := hpreload.of_missing_preload
  obtain ⟨hlooked, rfl, rfl⟩ := hlibrary.of_missing_library
  obtain ⟨s, path, hfield, htext, hclosed, rfl⟩ := hpath.of_missing_path
  generalize hverdict : Verdict.missing _ = verdict at hnone
  cases hnone with
  | exhausted =>
    obtain rfl := Verdict.missing.inj hverdict
    refine ⟨m₁, s, path, hpreloaded, hlooked, hfield, htext, hclosed, ?_⟩
    rw [String.append_empty]
    exact (String.append_assoc ..).symm

/-- Where no metatable is in the way, nothing at all has happened. -/
theorem Absent.eq_noted {trail : String} (h : Absent invoke tables name trail m m')
    (hpreload : (m.tableAt tables.preload).metatable = none)
    (hpackage : (m.tableAt tables.package).metatable = none) :
    m' = ((m.noted (.consulted name .preload)).noted (.consulted name .library)).noted
      (.consulted name .path) := by
  obtain ⟨m₁, s, path, hfirst, -, hlast, -⟩ := h.chain
  rw [Run.hostField_run (m := m.noted _) hpreload] at hfirst
  obtain ⟨-, rfl⟩ := EStateM.Result.ok.inj hfirst
  rw [Run.hostField_run (m := ((m.noted _).noted _).noted _) hpackage] at hlast
  exact (EStateM.Result.ok.inj hlast).2.symm

/-- What is asked for is not there, so that it is what the searchers' verdict makes of it. -/
theorem Resolves.require_run {v : Value} {m₁ : Machine H World}
    (h : Resolves invoke tables name Searcher.all m' verdict m₁)
    (hkept : (kept invoke name).run (m.noted (.asked name m.modules)) = .ok v m')
    (habsent : v.isTrue = false) :
    (require invoke tables name).run m = (do
      let v ← conclude invoke name verdict
      noteModules (.answered name v)
      return v : Run H World Value).run m₁ := by
  have hconsult := h.consult_run ""
  rw [Verdict.behind_empty] at hconsult
  rw [require, Run.bind_ok (noteModules_run _), Run.bind_ok hkept, habsent]
  change (consult invoke tables name Searcher.all "" >>= _).run m' = _
  rw [EStateM.run_bind, EStateM.run_bind, hconsult]

/-- A module that is not there is made by what the first searcher to find something has found. All
others are not asked, something that is no module is an error at once, and where nothing is found the
error says where has been looked, place by place. -/
theorem require_resolves {v : Value}
    (hkept : (kept invoke name).run (m.noted (.asked name m.modules)) = .ok v m')
    (habsent : v.isTrue = false) :
    (∃ verdict m₁, Resolves invoke tables name Searcher.all m' verdict m₁) ∧
    ∀ verdict m₁, Resolves invoke tables name Searcher.all m' verdict m₁ →
      match verdict with
      | .missing trail =>
        (require invoke tables name).run m =
          (Run.fail (.runtime s!"module '{name}' not found:{trail}")).run m₁ ∧
        Absent invoke tables name trail m' m₁ ∧
        ((m'.tableAt tables.preload).metatable = none →
          (m'.tableAt tables.package).metatable = none →
          m₁ = ((m'.noted (.consulted name .preload)).noted (.consulted name .library)).noted
            (.consulted name .path))
      | .broken fault => (require invoke tables name).run m = (Run.fail fault).run m₁
      | .stopped stop => (require invoke tables name).run m = .error stop m₁
      | .hit loader label =>
        (require invoke tables name).run m = (do
          note (.called name loader label)
          let results ← Run.orFail
            (← Run.callGuarded invoke loader [.ofString name, .ofString label])
          let v ← settle invoke name (results.headD .nil)
          noteModules (.answered name v)
          return v : Run H World Value).run m₁ := by
  refine ⟨exists_resolves invoke tables name Searcher.all m', fun verdict m₁ h => ?_⟩
  have hrequire := h.require_run hkept habsent
  cases verdict with
  | missing trail => exact ⟨hrequire, h.absent, h.absent.eq_noted⟩
  | broken fault => exact hrequire
  | stopped stop => exact hrequire
  | hit loader label =>
    refine hrequire.trans ?_
    simp only [conclude, make, bind_assoc]

/-- A machine where a function for a module has been put beforehand. -/
def prepared : Machine Empty World where
  tables := #[{}, {}, ({} : Table).setText "shapes" (.function 0)]
  world := { storage := {}, store := .memory 0 }

/-- The function that has been put there makes the module, and the library is not asked. -/
theorem require_resolves_of_prepared :
    (kept (fun _ _ _ => pure [.int 7]) "shapes").run
        (prepared.noted (.asked "shapes" prepared.modules)) =
      .ok .nil (prepared.noted (.asked "shapes" prepared.modules)) ∧
    Value.nil.isTrue = false ∧
    (require (fun _ _ _ => pure [.int 7]) ⟨1, 2⟩ "shapes").run prepared = (do
      note (.called "shapes" (.function 0) ":preload:")
      let results ← Run.orFail (← Run.callGuarded (fun _ _ _ => pure [.int 7]) (.function 0)
        [.ofString "shapes", .ofString ":preload:"])
      let v ← settle (fun _ _ _ => pure [.int 7]) "shapes" (results.headD .nil)
      noteModules (.answered "shapes" v)
      return v : Run Empty World Value).run
        ((prepared.noted (.asked "shapes" prepared.modules)).noted (.consulted "shapes" .preload)) := by
  have hkept : (kept (fun _ _ _ => pure [.int 7]) "shapes").run
      (prepared.noted (.asked "shapes" prepared.modules)) =
      .ok .nil (prepared.noted (.asked "shapes" prepared.modules)) :=
    kept_run (m := prepared.noted _) rfl _
  have hfield : (Run.hostField (fun _ _ _ => pure [.int 7]) (ModuleTables.mk 1 2).preload
      "shapes").run
        ((prepared.noted (.asked "shapes" prepared.modules)).noted (.consulted "shapes" .preload)) =
      .ok (.function 0)
        ((prepared.noted (.asked "shapes" prepared.modules)).noted (.consulted "shapes" .preload)) :=
    Run.hostField_run (m := (prepared.noted _).noted _) rfl _ "shapes"
  refine ⟨hkept, rfl, (require_resolves hkept rfl).2 _ _ (.decided (.preloaded hfield) ?_)⟩
  rintro ⟨trail, h⟩
  exact absurd h (by simp)

end Module
end Sandbox
