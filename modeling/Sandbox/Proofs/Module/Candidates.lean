import Sandbox.Proofs.Module.Resolution
import Sandbox.Proofs.Module.Runs
import Sandbox.Proofs.Script.Growth
import Sandbox.Session.Setup

/-!
# From a search path to a file

The search path that is given, by itself or in the environment, is what the module system is set up with.
The service that finds files on it and the searcher of `require` try the same files for a module, and both
answer the first that opens.
-/

namespace Sandbox

open Script

namespace SearchPath

/-- The files of a search path whose doubled semicolons are expanded. -/
theorem filesOn_expandDoubled (raw name : String) :
    Searcher.filesOn (String.ofList (expandDoubled raw.toList)) name = files raw name := by
  rw [Searcher.filesOn, templates_expandDoubled, files, List.map_map]
  refine List.map_congr_left fun template _ => ?_
  rw [Function.comp_apply, candidate, String.toList_ofList, replaceAll_dot, fileFor]

/-- The search path that is given, where one is: by itself, or in the environment if this is not
ignored. -/
def Settings.given (s : Settings) (environment : List (String × String)) : Option String :=
  match s.explicit with
  | some path => some path
  | none => if s.ignoresEnvironment then none else environment.lookup s.variableName

/-- Doubled semicolons are expanded in a search path that is given. -/
theorem Settings.path_of_given {s : Settings} {environment : List (String × String)} {raw : String}
    (hgiven : s.given environment = some raw) (hraw : raw ≠ "") :
    s.path environment = String.ofList (expandDoubled raw.toList) := by
  have hexpand : expand (some raw) false = String.ofList (expandDoubled raw.toList) := by
    simp [expand, hraw]
  unfold Settings.given at hgiven
  unfold Settings.path
  cases hexplicit : s.explicit with
  | some path =>
    rw [hexplicit] at hgiven
    obtain rfl := Option.some.inj hgiven
    exact hexpand
  | none =>
    cases hignored : s.ignoresEnvironment with
    | true => simp [hexplicit, hignored] at hgiven
    | false =>
      rw [hexplicit] at hgiven
      simp only [hignored, Bool.false_eq_true, if_false] at hgiven
      dsimp only
      rw [hgiven, hexpand]

end SearchPath

namespace Setup

variable {E W : Type} {m : Machine (Service E) W} {id : Nat} {path : String}

/-- A table without a metatable holds a search path. -/
structure Holds (id : Nat) (path : String) (m : Machine (Service E) W) : Prop where
  isThere : id < m.tables.size
  sound : (m.tableAt id).Sound
  metatable : (m.tableAt id).metatable = none
  path : (m.tableAt id).getText "path" = .ofString path

/-- A run that starts where a table holds a search path ends well, and the table holds it still. -/
def Keeps {α : Type} (id : Nat) (path : String) (act : Run (Service E) W α) : Prop :=
  ∀ m, Holds id path m → ∃ a m', act.run m = .ok a m' ∧ Holds id path m'

theorem Keeps.bind {α β : Type} {act : Run (Service E) W α} {next : α → Run (Service E) W β}
    (hact : Keeps id path act) (hnext : ∀ a, Keeps id path (next a)) : Keeps id path (act >>= next) := by
  intro m hm
  obtain ⟨a, m₁, hrun, hm₁⟩ := hact m hm
  obtain ⟨b, m₂, hlast, hm₂⟩ := hnext a m₁ hm₁
  exact ⟨b, m₂, (Run.bind_ok hrun).trans hlast, hm₂⟩

theorem Keeps.pure {α : Type} (a : α) : Keeps id path (pure a : Run (Service E) W α) :=
  fun m hm => ⟨a, m, rfl, hm⟩

theorem Keeps.get : Keeps id path (get : Run (Service E) W (Machine (Service E) W)) :=
  fun m hm => ⟨m, m, rfl, hm⟩

theorem Keeps.forM {α : Type} {items : List α} {act : α → Run (Service E) W Unit}
    (hact : ∀ a ∈ items, Keeps id path (act a)) : Keeps id path (items.forM act) := by
  induction items with
  | nil => exact .pure ()
  | cons a items ih =>
    obtain ⟨hfirst, hrest⟩ := List.forall_mem_cons.mp hact
    exact hfirst.bind fun _ => ih hrest

/-- To set another field of any table leaves the search path where it is. -/
theorem keeps_setField (other : Nat) {name : String} (hname : name ≠ "path") (v : Value) :
    Keeps id path (Run.setField other name v : Run (Service E) W Unit) := by
  intro m hm
  refine ⟨(), _, Run.modifyTable_run other _, ?_⟩
  by_cases hother : other = id
  · subst hother
    have hset := Machine.tableAt_setTable hm.isThere ((m.tableAt other).setText name v)
    constructor
    · simpa using hm.isThere
    · rw [hset]
      exact hm.sound.setText name v
    · rw [hset, Table.metatable_setText, hm.metatable]
    · rw [hset, hm.sound.getText_setText, if_neg hname.symm, hm.path]
  · have hset := Machine.tableAt_setTable_of_ne (m := m) hother ((m.tableAt other).setText name v)
    exact ⟨by simpa using hm.isThere, hset ▸ hm.sound, hset ▸ hm.metatable, hset ▸ hm.path⟩

/-- A new table holds the search path that it is given. -/
theorem holds_setText (hthere : id < m.tables.size) (path : String) :
    Holds id path (m.setTable id (({} : Table).setText "path" (.ofString path))) := by
  have hset := Machine.tableAt_setTable hthere (({} : Table).setText "path" (.ofString path))
  constructor
  · simpa using hthere
  · rw [hset]
    exact Table.sound_empty.setText _ _
  · rw [hset, Table.metatable_setText]
  · rw [hset, Table.sound_empty.getText_setText, if_pos rfl]

theorem keeps_service (s : Service E) : Keeps id path (service s : Run (Service E) W Value) :=
  fun _ hm => ⟨_, _, rfl, hm.isThere, hm.sound, hm.metatable, hm.path⟩

theorem keeps_setServices (other : Nat) {services : List (String × Service E)}
    (hnames : ∀ entry ∈ services, entry.1 ≠ "path") :
    Keeps id path (setServices other services : Run (Service E) W Unit) :=
  .forM fun entry hentry =>
    .bind (keeps_service entry.2) fun v => keeps_setField other (hnames entry hentry) v

theorem keeps_publish (name : String) (hname : name ≠ "path") (other : Nat) :
    Keeps id path (Library.publish name other : Run (Service E) W Unit) :=
  .bind .get fun _ => .bind (keeps_setField _ hname _) fun _ => keeps_setField _ hname _

/-- What is set up of the module system once its tables are there and the search path is set. -/
def fillModules (globals loaded package preload : Nat) : Run (Service E) W Unit := do
  Library.setFields package [("config", .ofString pathCharacters), ("loaded", .table loaded),
    ("preload", .table preload)]
  setServices package [("searchpath", .searchPath), ("loadlib", .loadLibrary)]
  setServices globals [("require", .require ⟨package, preload⟩)]
  Library.publish "package" package

theorem keeps_fillModules (globals loaded preload : Nat) :
    Keeps id path (fillModules globals loaded id preload : Run (Service E) W Unit) := by
  refine .bind (.forM ?_) fun _ => .bind (keeps_setServices id ?_) fun _ =>
    .bind (keeps_setServices globals ?_) fun _ => keeps_publish "package" (by decide) id
  · simp only [List.forall_mem_cons]
    exact ⟨keeps_setField _ (by decide) _, keeps_setField _ (by decide) _,
      keeps_setField _ (by decide) _, by simp⟩
  · simp
  · simp

/-- The machine with two more tables, one for the packages and one for the functions of modules. -/
def withTables (m : Machine (Service E) W) : Machine (Service E) W :=
  { m with tables := (m.tables.push {}).push {} }

/-- The search path is the first thing that is set. -/
theorem installModules_run (path : String) (m : Machine (Service E) W) :
    (installModules path).run m = (do
      Run.setField m.tables.size "path" (.ofString path)
      fillModules m.globals m.loaded m.tables.size (m.tables.push {}).size
      return ⟨m.tables.size, (m.tables.push {}).size⟩ :
        Run (Service E) W ModuleTables).run (withTables m) := by
  have hpackage : (Run.newTable {} : Run (Service E) W Nat).run m =
      .ok m.tables.size { m with tables := m.tables.push {} } := rfl
  have hpreload : (Run.newTable {} : Run (Service E) W Nat).run
      { m with tables := m.tables.push {} } = .ok (m.tables.push {}).size (withTables m) := rfl
  have hfields (id : Nat) (fields : List (String × Value)) :
      (Library.setFields id (("path", .ofString path) :: fields) : Run (Service E) W Unit) =
        (do Run.setField id "path" (.ofString path); Library.setFields id fields) := rfl
  rw [installModules, Run.bind_ok hpackage, Run.bind_ok hpreload, Run.bind_ok Run.get_run, hfields]
  simp only [fillModules, bind_assoc]
  rfl

/-- The module system that is set up starts with the search path that it is given. -/
theorem installModules_holds (path : String) (m : Machine (Service E) W) :
    ∃ tables m', (installModules path).run m = .ok tables m' ∧ Holds tables.package path m' := by
  have hthere : m.tables.size < (withTables m).tables.size := by
    simp only [withTables, Array.size_push]
    omega
  have hempty : (withTables m).tableAt m.tables.size = {} := by
    have hpushed : (withTables m).tables[m.tables.size]? = some {} := by
      rw [withTables, Array.getElem?_push, if_neg (by simp), Array.getElem?_push_size]
    rw [Machine.tableAt, Array.getD_eq_getD_getElem?, hpushed, Option.getD_some]
  have hset : (Run.setField m.tables.size "path" (.ofString path)).run (withTables m) = .ok ()
      ((withTables m).setTable m.tables.size (({} : Table).setText "path" (.ofString path))) := by
    rw [← hempty]
    exact Run.modifyTable_run m.tables.size _
  obtain ⟨⟨⟩, m', hrun, hholds⟩ := keeps_fillModules m.globals m.loaded (m.tables.push {}).size _
    (holds_setText hthere path)
  refine ⟨⟨m.tables.size, (m.tables.push {}).size⟩, m', ?_, hholds⟩
  rw [installModules_run, Run.bind_ok hset, Run.bind_ok hrun]
  rfl

end Setup
namespace Searcher

variable {E : Type} {m m' : Machine (Service E) World} {invoke : Invoke (Service E) World}
  {tables : ModuleTables} {s : SearchPath.Settings} {environment : List (String × String)} {raw : String}

/-- The service that finds the file of a module on a search path says what the search says. -/
theorem searchPathFor_run (name path : String) :
    (Service.searchPathFor [.ofString name, .ofString path]).run m =
      .ok (match SearchPath.search (m.world.storage.opens m.world.store) (filesOn path name) with
        | .ok file => [.ofString file]
        | .error tried => [.nil, .ofString (SearchPath.missingMessage tried)]) m := by
  have hname : Value.hostArgument Value.toHostText [.ofString name, .ofString path] 1 = .ok name := by
    rw [Value.hostArgument, List.getD_cons_zero, Value.toHostText_ofString, Except.mapError]
  have hpath : Value.hostArgument Value.toHostText [.ofString name, .ofString path] 2 = .ok path := by
    rw [Value.hostArgument, List.getD_cons_succ, List.getD_cons_zero, Value.toHostText_ofString,
      Except.mapError]
  rw [Service.searchPathFor, hname, hpath]
  change (match SearchPath.search (m.world.storage.opens m.world.store) (filesOn path name) with
    | .ok file => return [.ofString file]
    | .error tried => return [.nil, .ofString (SearchPath.missingMessage tried)] :
      Run (Service E) World (List Value)).run m = _
  cases SearchPath.search (m.world.storage.opens m.world.store) (filesOn path name) <;> rfl

/-- Where a search path is given, the module system starts with what has been made of it. From then on
the service that finds files on it, and `require` as long as it is in force, try the files that the runs
of the given path are for, in order. The first that opens is the answer, whatever is behind it, and if
none does, there is one line for each of them. -/
theorem searches_runs (hgiven : s.given environment = some raw) (hraw : raw ≠ "") :
    (∀ m : Machine (Service E) World, ∃ tables m',
      (Setup.installModules (s.path environment)).run m = .ok tables m' ∧ ∀ invoke,
        (Run.hostField invoke tables.package "path").run m' = .ok (.ofString (s.path environment)) m') ∧
    ∀ (extension : Extension E) (invoke : Invoke (Service E) World) (tables : ModuleTables)
      (name : String) (m m' : Machine (Service E) World),
      (Run.hostField invoke tables.package "path").run m = .ok (.ofString (s.path environment)) m' →
      let found : Run (Service E) World (List Value) :=
        Service.run extension invoke .searchPath [.ofString name, .ofString (s.path environment)]
      let sought : Run (Service E) World Finding := Searcher.path.search invoke tables name
      let files := SearchPath.files raw name
      (∀ before file after, files = before ++ file :: after → (∀ other ∈ before, ¬Opens m' other) →
        Opens m' file → found.run m' = .ok [.ofString file] m' ∧
          sought.run m = (do foundIn name file (← loadStored file)).run m') ∧
      ((∀ file ∈ files, ¬Opens m' file) →
        found.run m' = .ok [.nil, .ofString (String.join (files.map missingLine))] m' ∧
          sought.run m = .ok (.missing (String.join (files.map missingLine))) m') := by
  constructor
  · intro m
    obtain ⟨tables, m', hrun, hholds⟩ := Setup.installModules_holds (s.path environment) m
    refine ⟨tables, m', hrun, fun invoke => ?_⟩
    rw [Run.hostField_run hholds.metatable, hholds.path]
  · intro extension invoke tables name m m' hpath found sought files
    have hfiles : filesOn (s.path environment) name = files := by
      rw [SearchPath.Settings.path_of_given hgiven hraw, SearchPath.filesOn_expandDoubled]
    have hfound := searchPathFor_run (m := m') name (s.path environment)
    have hsought : (searchStore invoke tables name).run m = _ :=
      searchStore_run hpath (Value.decodeText_ofString _ _)
    rw [hfiles] at hfound hsought
    constructor
    · intro before file after hsplit hclosed hopen
      rw [hsplit, search_of_open hclosed hopen] at hfound hsought
      exact ⟨hfound, hsought⟩
    · intro hclosed
      rw [search_of_closed hclosed] at hfound hsought
      exact ⟨hfound, hsought⟩

/-- A search path with doubled semicolons at its start and within it. -/
def givenPath : String := ";;lib/?.lua;;;x?"

/-- The environment that gives it. -/
def givenEnvironment : List (String × String) := [("LUA_PATH", givenPath)]

/-- A store with two of the files that are tried, and the table that holds the search path. -/
def shelved : Machine (Service Empty) World where
  tables := #[({} : Table).setText "path"
    (.ofString (({} : SearchPath.Settings).path givenEnvironment))]
  world := { storage := { memories := #[⟨[(["lib", "net", "http.lua"], ⟨"return 1".toUTF8, .epoch⟩),
      (["xnet", "http"], ⟨"return 2".toUTF8, .epoch⟩)]⟩] }, store := .memory 0 }

/-- The environment gives a search path. The second of the files that it is for is the answer for a module
with a dot in its name, and one with a mark in its name has no file. -/
theorem searches_runs_of_doubled :
    ({} : SearchPath.Settings).given givenEnvironment = some givenPath ∧ givenPath ≠ "" ∧
    ∀ (invoke : Invoke (Service Empty) World),
      (Service.run nofun invoke .searchPath [.ofString "net.http",
        .ofString (({} : SearchPath.Settings).path givenEnvironment)]).run shelved =
          .ok [.ofString "lib/net/http.lua"] shelved ∧
      (Searcher.path.search invoke ⟨0, 0⟩ "a?;").run shelved = .ok (.missing
        "\n\tno file 'a?;.lua'\n\tno file 'lib/a?;.lua'\n\tno file 'a?;.lua'\n\tno file 'xa?;'") shelved := by
  have hgiven : ({} : SearchPath.Settings).given givenEnvironment = some givenPath := rfl
  have hraw : givenPath ≠ "" := by decide
  refine ⟨hgiven, hraw, fun invoke => ?_⟩
  have hpath : (Run.hostField invoke 0 "path").run shelved =
      .ok (.ofString (({} : SearchPath.Settings).path givenEnvironment)) shelved := by
    have hget : (shelved.tableAt 0).getText "path" =
        .ofString (({} : SearchPath.Settings).path givenEnvironment) := by decide +kernel
    rw [Run.hostField_run (by decide +kernel), hget]
  have hall := (searches_runs hgiven hraw).2 (nofun : Extension Empty) invoke ⟨0, 0⟩
  constructor
  · refine ((hall "net.http" shelved shelved hpath).1 ["net/http.lua"] "lib/net/http.lua"
      ["net/http.lua", "xnet/http"] ?_ ?_ ?_).1
    · decide +kernel
    · unfold Opens
      decide +kernel
    · unfold Opens
      decide +kernel
  · refine ((hall "a?;" shelved shelved hpath).2 ?_).2
    unfold Opens
    decide +kernel

end Searcher
end Sandbox
