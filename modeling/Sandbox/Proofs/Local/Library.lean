import Sandbox.Proofs.Local.Naming
import Sandbox.Proofs.Named
import Sandbox.Proofs.Script.Run
import Sandbox.Proofs.Store.Confinement

/-!
# The library below a directory

The library has a module for each name that the scripts below a directory give. Of the scripts of one name
it has the last one on the walk. Where no directory and no stem has a dot in it, and all names are texts, no
two scripts meet in a name: each of them is a module under one name, with its own source, and the name leads
back to its file.
-/

namespace Sandbox

/-- A list is mapped just if each of its items is. -/
theorem mapM_eq_ok_iff {α β ε : Type} {f : α → Except ε β} {g : α → β}
    (hg : ∀ item result, f item = .ok result → result = g item) {items : List α} {results : List β} :
    items.mapM f = .ok results ↔ (∀ item ∈ items, f item = .ok (g item)) ∧ results = items.map g := by
  induction items generalizing results with
  | nil => simp [pure, Except.pure, eq_comm]
  | cons item rest ih =>
    rw [List.mapM_cons, List.forall_mem_cons, List.map_cons]
    cases hitem : f item with
    | error e => simp [bind, Except.bind]
    | ok result =>
      obtain rfl := hg item result hitem
      cases hrest : rest.mapM f with
      | error e =>
        have hnone : ¬∀ item ∈ rest, f item = .ok (g item) := by
          intro hall
          rw [ih.mpr ⟨hall, rfl⟩] at hrest
          cases hrest
        simp [bind, Except.bind, hnone]
      | ok others =>
        obtain ⟨hall, rfl⟩ := ih.mp hrest
        constructor
        · intro h
          cases h
          exact ⟨⟨rfl, hall⟩, rfl⟩
        · rintro ⟨-, rfl⟩
          rfl

/-- Under a name there is the last thing that has it. -/
theorem lookup_reverse_map {α β : Type} {R : α → α → Prop} (hasymm : ∀ a b, R a b → ¬R b a)
    {g : α → String × β} {things : List α} (hthings : things.Pairwise R) {name : String} {b : β} :
    (things.map g).reverse.lookup name = some b ↔
      ∃ a ∈ things, g a = (name, b) ∧ ∀ other ∈ things, (g other).1 = name → other = a ∨ R other a := by
  induction things using List.reverseRecOn with
  | nil => simp
  | append_singleton front last ih =>
    obtain ⟨hfront, -, hlast⟩ := List.pairwise_append.mp hthings
    have hbefore : ∀ a ∈ front, R a last := fun a ha => hlast a ha last (List.mem_singleton_self last)
    rw [List.map_append, List.reverse_append, List.map_singleton, List.reverse_singleton,
      List.singleton_append, List.lookup_cons]
    by_cases hname : name = (g last).1
    · rw [beq_iff_eq.mpr hname]
      constructor
      · intro h
        obtain rfl := Option.some.inj h
        refine ⟨last, by simp, by rw [hname], fun other hother _ => ?_⟩
        rcases List.mem_append.mp hother with hother | hother
        · exact .inr (hbefore other hother)
        · exact .inl (List.mem_singleton.mp hother)
      · rintro ⟨a, hmem, ha, hothers⟩
        rcases hothers last (by simp) hname.symm with rfl | hafter
        · rw [ha]
        · rcases List.mem_append.mp hmem with hmem | hmem
          · exact absurd hafter (hasymm a last (hbefore a hmem))
          · rw [← List.mem_singleton.mp hmem, ha]
    · rw [beq_eq_false_iff_ne.mpr hname]
      refine (ih hfront).trans ⟨?_, ?_⟩
      · rintro ⟨a, hmem, ha, hothers⟩
        refine ⟨a, List.mem_append_left _ hmem, ha, fun other hother hsame => ?_⟩
        rcases List.mem_append.mp hother with hother | hother
        · exact hothers other hother hsame
        · exact absurd (by rw [← hsame, List.mem_singleton.mp hother]) hname
      · rintro ⟨a, hmem, ha, hothers⟩
        rcases List.mem_append.mp hmem with hmem | hmem
        · exact ⟨a, hmem, ha, fun other hother => hothers other (List.mem_append_left _ hother)⟩
        · exact absurd (by rw [← List.mem_singleton.mp hmem, ha]) hname

namespace Local

open Disk

variable {w : Surroundings} {directory : String} {top : Nat}

theorem Precedes.asymm {steps others : List ByteArray} (h : Precedes steps others) :
    ¬Precedes others steps := by
  intro h'
  induction h with
  | nil => cases h'
  | cons _ ih =>
    cases h' with
    | cons h' => exact ih h'
    | rel h' => exact List.lt_irrefl _ h'
  | rel h =>
    cases h' with
    | cons => exact List.lt_irrefl _ h
    | rel h' => exact List.lt_asymm h h'

/-- A module comes from these steps: there is a script, and the walk comes to no other one of the name
later. -/
structure IsModule (d : Disk) (top : Nat) (steps : List ByteArray) (code : String) : Prop where
  script : ∃ data, HasScript d top steps data ∧ data.toText = .ok code
  last : ∀ other data, HasScript d top other data → moduleName other = moduleName steps →
    other = steps ∨ Precedes other steps

/-- The names on the way are texts, and there are no dots in the directories and in the stem. -/
structure IsPlain (steps : List ByteArray) : Prop where
  dotless : Dotless steps
  texts : AreTexts steps

/-- The entry of the library for a script. -/
def entryOf (script : List ByteArray × ByteArray) : String × SourceFile :=
  (moduleName script.1, ⟨joined "/" script.1, script.2.toTextLossy⟩)

theorem toTextLossy_of_toText {data : ByteArray} {code : String} (h : data.toText = .ok code) :
    data.toTextLossy = code := by
  rw [ByteArray.toText] at h
  rw [ByteArray.toTextLossy]
  split at h
  · exact Except.ok.inj h
  · cases h

/-- The entry of the library for a script that is read. -/
def readEntry (directory : String) (script : List ByteArray × ByteArray) :
    Except Error (String × SourceFile) :=
  match script.2.toText with
  | .ok code => .ok (moduleName script.1, ⟨joined "/" script.1, code⟩)
  | .error _ => .error (.unreadable (Config.below directory (joined "/" script.1)) .notText)

theorem readEntry_eq_ok_iff {script : List ByteArray × ByteArray} {entry : String × SourceFile} :
    readEntry directory script = .ok entry ↔
      (∃ code, script.2.toText = .ok code) ∧ entry = entryOf script := by
  rw [readEntry, entryOf]
  cases htext : script.2.toText with
  | error e => simp
  | ok code => simp [toTextLossy_of_toText htext, eq_comm]

theorem library_eq (hfind : w.disk.find w.cwd directory = .ok top) :
    library w directory =
      ((scriptsBelow w.disk w.disk.nodes.size top).mapM (readEntry directory)).map Named.ofList := by
  have hmap : ∀ result : Except Error (List (String × SourceFile)),
      (result >>= fun modules => pure (Named.ofList modules)) = result.map Named.ofList := by
    rintro (_ | _) <;> rfl
  rw [library, hfind]
  refine (hmap _).trans ?_
  congr 2

/-- There is a library just if all scripts are texts. -/
theorem library_eq_ok_iff (hfind : w.disk.find w.cwd directory = .ok top) (htree : w.disk.IsTree top)
    {modules : List (String × SourceFile)} :
    library w directory = .ok modules ↔
      (∀ steps data, HasScript w.disk top steps data → ∃ code, data.toText = .ok code) ∧
        modules = Named.ofList ((scriptsBelow w.disk w.disk.nodes.size top).map entryOf) := by
  have hentries {entries : List (String × SourceFile)} :
      (scriptsBelow w.disk w.disk.nodes.size top).mapM (readEntry directory) = .ok entries ↔
        (∀ steps data, HasScript w.disk top steps data → ∃ code, data.toText = .ok code) ∧
          entries = (scriptsBelow w.disk w.disk.nodes.size top).map entryOf := by
    rw [mapM_eq_ok_iff fun script entry h => (readEntry_eq_ok_iff.mp h).2]
    simp only [readEntry_eq_ok_iff, and_true, Prod.forall, mem_scriptsBelow_iff htree]
  rw [library_eq hfind]
  cases hrun : (scriptsBelow w.disk w.disk.nodes.size top).mapM (readEntry directory) with
  | error e =>
    constructor
    · intro h
      cases h
    · rintro ⟨htexts, -⟩
      rw [hentries.mpr ⟨htexts, rfl⟩] at hrun
      cases hrun
  | ok entries =>
    obtain ⟨htexts, rfl⟩ := hentries.mp hrun
    constructor
    · intro h
      exact ⟨htexts, (Except.ok.inj h).symm⟩
    · rintro ⟨-, rfl⟩
      rfl

/-- Under a name the library has the last script of the name. -/
theorem lookup_library (hfind : w.disk.find w.cwd directory = .ok top) (htree : w.disk.IsTree top)
    {modules : List (String × SourceFile)} (hmodules : library w directory = .ok modules) (name : String)
    (file : SourceFile) :
    modules.lookup name = some file ↔ ∃ steps code, IsModule w.disk top steps code ∧
      moduleName steps = name ∧ file = ⟨joined "/" steps, code⟩ := by
  obtain ⟨htexts, rfl⟩ := (library_eq_ok_iff hfind htree).mp hmodules
  rw [Named.lookup_ofList, lookup_reverse_map (fun _ _ h => Precedes.asymm h) (pairwise_scriptsBelow htree _)]
  constructor
  · rintro ⟨⟨steps, data⟩, hmem, hentry, hothers⟩
    simp only [entryOf, Prod.mk.injEq] at hentry hothers
    obtain ⟨hname, hfile⟩ := hentry
    have hscript := (mem_scriptsBelow_iff htree).mp hmem
    obtain ⟨code, hcode⟩ := htexts steps data hscript
    refine ⟨steps, code, ⟨⟨data, hscript, hcode⟩, fun other data' hother hsame => ?_⟩, hname, ?_⟩
    · have hlast := hothers (other, data') ((mem_scriptsBelow_iff htree).mpr hother) (hsame.trans hname)
      exact hlast.imp_left fun heq => (Prod.mk.inj heq).1
    · rw [← hfile, toTextLossy_of_toText hcode]
  · rintro ⟨steps, code, ⟨⟨data, hscript, hcode⟩, hlast⟩, rfl, rfl⟩
    refine ⟨(steps, data), (mem_scriptsBelow_iff htree).mpr hscript, ?_, ?_⟩
    · rw [entryOf, toTextLossy_of_toText hcode]
    · rintro ⟨other, data'⟩ hmem hsame
      have hother := (mem_scriptsBelow_iff htree).mp hmem
      simp only [entryOf] at hsame
      refine (hlast other data' hother hsame).imp_left ?_
      rintro rfl
      rw [hother.unique htree hscript]

theorem EndInScript.ne_nil {steps : List ByteArray} (h : EndInScript steps) : steps ≠ [] := by
  obtain ⟨name, hlast, -⟩ := h
  rintro rfl
  cases hlast

/-- There is no slash on the way to a script. -/
theorem HasScript.slash {d : Disk} {steps : List ByteArray} {data : ByteArray}
    (h : HasScript d top steps data) (htree : d.IsTree top) : ∀ step ∈ steps, 0x2F ∉ step.toList := by
  obtain ⟨number, hleads, -⟩ := h.leads
  clear h
  induction hleads with
  | here => exact fun step hstep => by cases hstep
  | step hentry _ ih =>
    refine List.forall_mem_cons.mpr ⟨?_, ih (htree.below hentry)⟩
    exact htree.slash [] _ _ _ (.here _) hentry

/-- A script with plain steps is a module of one name if all others have plain steps, too. -/
theorem lookup_library_of_plain (hfind : w.disk.find w.cwd directory = .ok top)
    (htree : w.disk.IsTree top) {modules : List (String × SourceFile)}
    (hmodules : library w directory = .ok modules)
    (hplain : ∀ steps data, HasScript w.disk top steps data → IsPlain steps) {steps : List ByteArray}
    {data : ByteArray} {code : String} (h : HasScript w.disk top steps data)
    (hcode : data.toText = .ok code) (name : String) (file : SourceFile) :
    modules.lookup name = some file ∧ file.name = joined "/" steps ↔
      name = moduleName steps ∧ file = ⟨joined "/" steps, code⟩ := by
  have hsteps := hplain steps data h
  rw [lookup_library hfind htree hmodules]
  constructor
  · rintro ⟨⟨other, code', hmodule, rfl, rfl⟩, hjoined⟩
    obtain ⟨data', hother, hcode'⟩ := hmodule.script
    obtain rfl : other = steps :=
      eq_of_joined hother.named.ne_nil h.named.ne_nil (hplain other data' hother).texts hsteps.texts
        (hother.slash htree) (h.slash htree) hjoined
    rw [hother.unique htree h, hcode] at hcode'
    exact ⟨rfl, by rw [Except.ok.inj hcode']⟩
  · rintro ⟨rfl, rfl⟩
    refine ⟨⟨steps, code, ⟨⟨data, h, hcode⟩, fun other data' hother hsame => .inl ?_⟩, rfl, rfl⟩, rfl⟩
    have hothers := hplain other data' hother
    exact hother.named.eq_of_moduleName h.named hothers.dotless hsteps.dotless hothers.texts hsteps.texts
      hsame

/-- There is a library if all scripts are texts. Under a name it has the last script of the name, which is
what a search for the module finds. The name leads back to the file just if there is no dot in the steps.
Two scripts with plain steps have different names, and where all scripts have plain steps, each of them is a
module under one name, with its own source. -/
theorem library_names {H : Type} (hfind : w.disk.find w.cwd directory = .ok top)
    (htree : w.disk.IsTree top) :
    ((∃ modules, library w directory = .ok modules) ↔
      ∀ steps data, HasScript w.disk top steps data → ∃ code, data.toText = .ok code) ∧
    ∀ modules, library w directory = .ok modules →
      (∀ name file, modules.lookup name = some file ↔ ∃ steps code, IsModule w.disk top steps code ∧
        moduleName steps = name ∧ file = ⟨joined "/" steps, code⟩) ∧
      (∀ name file (m : Script.Machine H World), m.world.library = modules →
        modules.lookup name = some file → (Searcher.searchLibrary name).run m =
          (do Searcher.foundIn name file.name (← Chunk.loadSource file) : Script.Run H World Finding).run m) ∧
      (∀ steps code, IsModule w.disk top steps code →
        (SearchPath.candidates (moduleName steps) SearchPath.standard Searcher.separators.1
          Searcher.separators.2 = [joined "/" steps] ↔ Dotless steps)) ∧
      (∀ steps others data data', HasScript w.disk top steps data → HasScript w.disk top others data' →
        IsPlain steps → IsPlain others → moduleName steps = moduleName others → steps = others) ∧
      ((∀ steps data, HasScript w.disk top steps data → IsPlain steps) →
        ∀ steps data, HasScript w.disk top steps data → ∃ code, data.toText = .ok code ∧
          ∀ name file, modules.lookup name = some file ∧ file.name = joined "/" steps ↔
            name = moduleName steps ∧ file = ⟨joined "/" steps, code⟩) := by
  constructor
  · constructor
    · rintro ⟨modules, hmodules⟩
      exact ((library_eq_ok_iff hfind htree).mp hmodules).1
    · intro htexts
      exact ⟨_, (library_eq_ok_iff hfind htree).mpr ⟨htexts, rfl⟩⟩
  intro modules hmodules
  refine ⟨lookup_library hfind htree hmodules, ?_, ?_, ?_, ?_⟩
  · rintro name file m rfl hfile
    rw [Searcher.searchLibrary, Script.Run.bind_ok Script.Run.get_run, hfile]
  · rintro steps code ⟨⟨data, hscript, -⟩, -⟩
    exact hscript.named.candidates_iff
  · intro steps others data data' h h' hplain hplain' hname
    exact h.named.eq_of_moduleName h'.named hplain.dotless hplain'.dotless hplain.texts hplain'.texts hname
  · intro hplain steps data h
    obtain ⟨code, hcode⟩ := ((library_eq_ok_iff hfind htree).mp hmodules).1 steps data h
    exact ⟨code, hcode, lookup_library_of_plain hfind htree hmodules hplain h hcode⟩

/-! ## Two directories -/

/-- A file with this text. -/
def fileNode (text : String) : Node := ⟨.file text.toUTF8, .epoch⟩

/-- A directory with these entries. -/
def directoryNode (entries : List (String × Nat)) : Node :=
  ⟨.directory (entries.map fun (name, number) => (name.toUTF8, number)), .epoch⟩

/-- A directory without dots in the names of its modules. -/
def bundle : Surroundings where
  disk := ⟨#[directoryNode [("json.lua", 1), ("util", 2)], fileNode "return 'json'",
    directoryNode [("README", 4), ("str.lua", 3)], fileNode "return 'str'", fileNode "no module"]⟩

theorem find_root {d : Disk} (h : (d.entries? 0).isSome = true) :
    d.find ⟨true, []⟩ "/" = .ok 0 := by
  have hsteps : stepsOfText "/" = [stay] := by decide +kernel
  have hwalk : d.walk true stepLimit linkLimit [0] (stepsOfText "/") = .ok [0] := by
    have hlimit : stepLimit = (stepLimit - 2) + 1 + 1 := by decide
    rw [hsteps, hlimit, walk, List.headD_cons, Option.isNone_eq_false_iff.mpr h, if_pos rfl, walk]
    rfl
  exact find_of_walk rfl (by simp) (by decide) (by decide +kernel) hwalk rfl

/-- Entries that are in the order of their names stay in it. -/
theorem sortedEntries_eq {d : Disk} {number : Nat} {entries : List (ByteArray × Nat)}
    (h : d.entries? number = some entries)
    (hsorted : entries.Pairwise fun a b => (!bytesBelow b.1.toList a.1.toList) = true) :
    sortedEntries d number = entries := by
  rw [sortedEntries, h]
  exact List.mergeSort_of_pairwise hsorted

/-- The steps to the scripts of the bundle. -/
theorem scriptsBelow_bundle : scriptsBelow bundle.disk bundle.disk.nodes.size 0 =
    [(["json.lua".toUTF8], "return 'json'".toUTF8),
      (["util".toUTF8, "str.lua".toUTF8], "return 'str'".toUTF8)] := by
  have hbelow : scriptsBelow bundle.disk 4 2 = [(["str.lua".toUTF8], "return 'str'".toUTF8)] := by
    rw [scriptsBelow_succ, sortedEntries_eq rfl (by decide +kernel)]
    rfl
  have hsize : bundle.disk.nodes.size = 4 + 1 := rfl
  rw [hsize, scriptsBelow_succ, sortedEntries_eq rfl (by decide +kernel)]
  change _ ++ ((scriptsBelow bundle.disk 4 2).map _ ++ _) = _
  rw [hbelow]
  rfl

/-- A file in a directory is a module under one name. -/
theorem library_names_of_bundle :
    bundle.disk.find bundle.cwd "/" = .ok 0 ∧ bundle.disk.IsTree 0 ∧
      (∀ steps data, HasScript bundle.disk 0 steps data → IsPlain steps) ∧
      library bundle "/" = .ok [("json", ⟨"json.lua", "return 'json'"⟩),
        ("util.str", ⟨"util/str.lua", "return 'str'"⟩)] ∧
      SearchPath.candidates "util.str" SearchPath.standard Searcher.separators.1
        Searcher.separators.2 = ["util/str.lua"] := by
  have hfind : bundle.disk.find bundle.cwd "/" = .ok 0 := find_root rfl
  have htree : bundle.disk.IsTree 0 := isTree_of_isAscending (by decide +kernel) 0
  have hplain : ∀ script ∈ scriptsBelow bundle.disk bundle.disk.nodes.size 0, IsPlain script.1 := by
    rw [scriptsBelow_bundle]
    simp only [List.forall_mem_cons]
    refine ⟨⟨?_, ?_⟩, ⟨?_, ?_⟩, by simp⟩
    · unfold Dotless
      decide +kernel
    · exact List.forall_mem_cons.mpr ⟨⟨"json.lua", rfl⟩, by simp⟩
    · unfold Dotless
      decide +kernel
    · exact List.forall_mem_cons.mpr ⟨⟨"util", rfl⟩, List.forall_mem_cons.mpr ⟨⟨"str.lua", rfl⟩, by simp⟩⟩
  have hlibrary : library bundle "/" = .ok [("json", ⟨"json.lua", "return 'json'"⟩),
      ("util.str", ⟨"util/str.lua", "return 'str'"⟩)] := by
    rw [library_eq hfind, scriptsBelow_bundle]
    decide +kernel
  obtain ⟨-, hmodules⟩ := library_names (H := Empty) hfind htree
  obtain ⟨hlookup, -, hback, -⟩ := hmodules _ hlibrary
  obtain ⟨steps, code, hmodule, hname, hfile⟩ := (hlookup "util.str" ⟨"util/str.lua", "return 'str'"⟩).mp rfl
  refine ⟨hfind, htree, fun steps data h => ?_, hlibrary, ?_⟩
  · exact hplain (steps, data) ((mem_scriptsBelow_iff htree).mpr h)
  · obtain ⟨data, hscript, -⟩ := hmodule.script
    have hdotless := (hplain (steps, data) ((mem_scriptsBelow_iff htree).mpr hscript)).dotless
    have hcandidates := (hback steps code hmodule).mpr hdotless
    rwa [hname, ← (SourceFile.mk.inj hfile).1] at hcandidates

/-- A directory with a file whose name has the name of another file's directory in it. -/
def dotted : Surroundings where
  disk := ⟨#[directoryNode [("a", 1), ("a.b.lua", 3)], directoryNode [("b.lua", 2)],
    fileNode "return 'below a'", fileNode "return 'beside a'"]⟩

/-- Two files have one name, and the library has one of them. Its name does not lead back to it. -/
theorem library_of_dotted :
    dotted.disk.find dotted.cwd "/" = .ok 0 ∧ dotted.disk.IsTree 0 ∧
      HasScript dotted.disk 0 ["a".toUTF8, "b.lua".toUTF8] "return 'below a'".toUTF8 ∧
      HasScript dotted.disk 0 ["a.b.lua".toUTF8] "return 'beside a'".toUTF8 ∧
      library dotted "/" = .ok [("a.b", ⟨"a.b.lua", "return 'beside a'"⟩)] ∧
      SearchPath.candidates "a.b" SearchPath.standard Searcher.separators.1 Searcher.separators.2 ≠
        ["a.b.lua"] := by
  have hfind : dotted.disk.find dotted.cwd "/" = .ok 0 := find_root rfl
  have htree : dotted.disk.IsTree 0 := isTree_of_isAscending (by decide +kernel) 0
  have hbelow : scriptsBelow dotted.disk 3 1 = [(["b.lua".toUTF8], "return 'below a'".toUTF8)] := by
    rw [scriptsBelow_succ, sortedEntries_eq rfl (by decide +kernel)]
    rfl
  have hscripts : scriptsBelow dotted.disk dotted.disk.nodes.size 0 =
    [(["a".toUTF8, "b.lua".toUTF8], "return 'below a'".toUTF8),
      (["a.b.lua".toUTF8], "return 'beside a'".toUTF8)] := by
    have hsize : dotted.disk.nodes.size = 3 + 1 := rfl
    rw [hsize, scriptsBelow_succ, sortedEntries_eq rfl (by decide +kernel)]
    change (scriptsBelow dotted.disk 3 1).map _ ++ _ = _
    rw [hbelow]
    rfl
  refine ⟨hfind, htree, ?_, ?_, ?_, by decide +kernel⟩
  · exact (mem_scriptsBelow_iff htree).mp (by simp [hscripts])
  · exact (mem_scriptsBelow_iff htree).mp (by simp [hscripts])
  · rw [library_eq hfind, hscripts]
    decide +kernel

end Local
end Sandbox
