import Sandbox.Proofs.Module.Candidates
import Sandbox.Proofs.Store.Confinement
import Sandbox.Proofs.Store.Route

/-!
# Modules stay below their templates

Dots in the name of a module become slashes, so two dots side by side in the file that a template names
for it come from the template. Where no template has them, even with its marks taken out, no file that is
tried for a module has them, and no store on its way leads above its own root.
-/

namespace Sandbox

open Script

/-- Two dots stand side by side in a text. -/
def HasDots (text : List Char) : Prop := ['.', '.'] <:+: text

instance (text : List Char) : Decidable (HasDots text) :=
  inferInstanceAs (Decidable (['.', '.'] <:+: text))

namespace SearchPath

/-- Two characters are not both dots. -/
def Apart (a b : Char) : Prop := ¬(a = '.' ∧ b = '.')

variable {name text template : List Char} {a : Char}

/-- No dots stand side by side exactly if no neighbours are both dots. -/
theorem not_hasDots_iff : ¬HasDots text ↔ text.IsChain Apart := by
  unfold HasDots
  induction text with
  | nil => simp
  | cons a text ih =>
    rw [List.isChain_cons, ← ih, List.infix_cons_iff, not_or]
    refine and_congr_left fun _ => ?_
    cases text with
    | nil => simp
    | cons b text => simp [Apart, List.cons_prefix_cons, eq_comm]

/-- A text without dots can be put behind any character. -/
theorem isChain_append_of_not_mem (hname : '.' ∉ name) (htext : (a :: text).IsChain Apart) :
    (a :: (name ++ text)).IsChain Apart := by
  induction name generalizing a with
  | nil => exact htext
  | cons b name ih =>
    obtain ⟨hb, hname⟩ := not_or.mp (mt List.mem_cons.mpr hname)
    have hbehind : (b :: text).IsChain Apart :=
      List.isChain_cons.mpr ⟨fun c _ h => hb h.1.symm, (List.isChain_cons.mp htext).2⟩
    exact List.isChain_cons_cons.mpr ⟨fun h => hb h.2.symm, ih hname hbehind⟩

/-- Marks that stand for a text without dots bring no dots together that are not together without the
marks. -/
theorem isChain_flatMap_of_not_mem (hname : '.' ∉ name)
    (htemplate : (a :: template.filter (· ≠ '?')).IsChain Apart) :
    (a :: template.flatMap fun c => if c = '?' then name else [c]).IsChain Apart := by
  induction template generalizing a with
  | nil => exact htemplate
  | cons c template ih =>
    rw [List.flatMap_cons]
    by_cases hc : c = '?'
    · rw [if_pos hc]
      apply isChain_append_of_not_mem hname
      apply ih
      simpa [hc] using htemplate
    · rw [if_neg hc, List.singleton_append]
      have hfilter : (a :: c :: template.filter (· ≠ '?')).IsChain Apart := by
        simpa [hc] using htemplate
      obtain ⟨hac, hrest⟩ := List.isChain_cons_cons.mp hfilter
      exact List.isChain_cons_cons.mpr ⟨hac, ih hrest⟩

theorem not_mem_replaceAll_dot (name : List Char) : '.' ∉ replaceAll ['.'] ['/'] name := by
  rw [replaceAll_dot]
  intro hmem
  obtain ⟨c, -, hc⟩ := List.mem_map.mp hmem
  by_cases hdot : c = '.' <;> simp [hdot] at hc

/-- The file that a template without dots side by side names for a module has none. -/
theorem not_hasDots_candidate {template : String}
    (htemplate : ¬HasDots (template.toList.filter (· ≠ '?'))) (name : String) :
    ¬HasDots (candidate (replaceAll ['.'] ['/'] name.toList) template).toList := by
  rw [candidate, String.toList_ofList, not_hasDots_iff]
  have hslash : ('/' :: template.toList.filter (· ≠ '?')).IsChain Apart :=
    List.isChain_cons.mpr ⟨fun c _ h => absurd h.1 (by decide), not_hasDots_iff.mp htemplate⟩
  exact (List.isChain_cons.mp
    (isChain_flatMap_of_not_mem (not_mem_replaceAll_dot name.toList) hslash)).2

end SearchPath

namespace Path

/-- Parts that are put together with separators between them are parts of the whole. -/
theorem infix_intercalate_of_mem {α : Type} (separator : List α) {part : List α} {parts : List (List α)}
    (hpart : part ∈ parts) : part <:+: separator.intercalate parts := by
  induction parts with
  | nil => cases hpart
  | cons first rest ih =>
    rcases eq_or_ne rest [] with rfl | hne
    · obtain rfl := List.mem_singleton.mp hpart
      rw [List.intercalate_singleton]
    · rw [List.intercalate_cons_of_ne_nil hne, List.append_assoc]
      rcases List.mem_cons.mp hpart with rfl | hpart
      · exact List.infix_append [] part _
      · apply (ih hpart).trans
        exact ((List.suffix_append _ _).trans (List.suffix_append _ _)).isInfix

/-- A text that has no dots side by side has no step upwards. -/
theorem dots_not_mem_names {text : String} (htext : ¬HasDots text.toList) :
    ".." ∉ MemoryStore.names text := by
  intro hmem
  obtain ⟨part, hpart, hdots⟩ := List.mem_map.mp (List.mem_filter.mp hmem).1
  refine htext ?_
  have hlist : part = ['.', '.'] := by
    rw [← String.toList_ofList (l := part), hdots]
    rfl
  have hinfix := infix_intercalate_of_mem ['/'] hpart
  rwa [List.intercalate_splitOn, hlist] at hinfix

end Path
namespace DirectoryStore

/-- A path that has no dots side by side leads from the root straight down. -/
theorem resolve_of_not_hasDots {root : Path} (hroot : root.IsPlace) {path : String}
    (hpath : ¬HasDots path.toList) :
    ∃ place, resolve root path = .ok place ∧ Within root place := by
  have hwalk : Path.walk root.steps (Path.ofText path).steps = root.steps ++ (Path.ofText path).steps :=
    Path.walk_of_names (Path.dots_not_mem_names hpath)
  have hresolve := resolve_eq hroot path
  rw [hwalk, if_pos (List.prefix_append _ _)] at hresolve
  exact ⟨_, hresolve, within_of_resolve hroot hresolve⟩

end DirectoryStore

namespace MemoryStore

/-- A path that has no dots side by side has a key. -/
theorem key_of_not_hasDots {path : String} (hpath : ¬HasDots path.toList) :
    key path = .ok (names path) := by
  rw [key_eq, if_neg (Path.dots_not_mem_names hpath)]

end MemoryStore

namespace Storage

/-- A memory does not refuse a path that has a key. -/
theorem openRead_ne_invalidPath {s : Storage} {store : Store} {path : String} {id : Nat}
    {key : List String} (hbackend : (store.locate path).backend = .memory id)
    (hkey : MemoryStore.key (store.locate path).path = .ok key) (refused : String) :
    s.openRead store path ≠ .error (.invalidPath refused) := by
  have hread : (s.memory id).read (store.locate path).path ≠ .error (.invalidPath refused) := by
    intro h
    rw [MemoryStore.read, hkey] at h
    cases hfile : (s.memory id).get? key with
    | none => simp [hfile, bind, Except.bind, throw, throwThe, MonadExceptOf.throw] at h
    | some file => simp [hfile, bind, Except.bind, pure, Except.pure] at h
  rw [openRead, hbackend]
  intro h
  apply hread
  cases hresult : (s.memory id).read (store.locate path).path with
  | ok data => simp [hresult, bind, Except.bind, pure, Except.pure] at h
  | error e =>
    simp only [hresult, bind, Except.bind] at h
    rw [Except.error.inj h]

end Storage

namespace Searcher

variable {H : Type}

/-- Whatever `require` is given as a name, the files that it tries in the store are those of the search
path, and where no template has dots side by side without its marks, none of them has. Whatever routers
are on its way, a memory at its end has a key for it and does not refuse it, and a directory that is
absolute finds it within its root. -/
theorem filesOn_stay_below {path : String}
    (hpath : ∀ template ∈ SearchPath.templates path, ¬HasDots (template.toList.filter (· ≠ '?')))
    (name : String) :
    (∀ (invoke : Invoke H World) (tables : ModuleTables) (m m' : Machine H World),
      (Run.hostField invoke tables.package "path").run m = .ok (.ofString path) m' →
      (Searcher.path.search invoke tables name).run m =
        (match (filesOn path name).find? (m'.world.storage.opens m'.world.store) with
          | none => return .missing (SearchPath.missingMessage (filesOn path name))
          | some file => do foundIn name file (← loadStored file) : Run H World Finding).run m') ∧
    ∀ file ∈ filesOn path name, ¬HasDots file.toList ∧
      ∀ store : Store, let target := store.locate file
        ¬HasDots target.path.toList ∧
        (∀ id, target.backend = .memory id →
          (∃ key, MemoryStore.key target.path = .ok key) ∧
          ∀ (s : Storage) (refused : String), s.openRead store file ≠ .error (.invalidPath refused)) ∧
        ∀ cwd text : String, (text.startsWith '/' = true ∨ cwd.startsWith '/' = true) →
          target.backend = .directory (DirectoryStore.root (.ofText cwd) text) →
          ∃ place,
            DirectoryStore.resolve (DirectoryStore.root (.ofText cwd) text) target.path = .ok place ∧
            DirectoryStore.Within (DirectoryStore.root (.ofText cwd) text) place := by
  constructor
  · intro invoke tables m m' hfield
    refine (searchStore_run hfield (Value.decodeText_ofString _ _)).trans ?_
    rw [SearchPath.search]
    cases (filesOn path name).find? (m'.world.storage.opens m'.world.store) <;> rfl
  · intro file hfile
    obtain ⟨template, htemplate, rfl⟩ := List.mem_map.mp hfile
    have hfree := SearchPath.not_hasDots_candidate (hpath template htemplate) name
    refine ⟨hfree, fun store => ?_⟩
    intro target
    have htarget : ¬HasDots target.path.toList :=
      fun hdots => hfree (hdots.trans (store.suffix_locate _).isInfix)
    refine ⟨htarget, fun id hbackend => ?_, fun cwd text habsolute _ => ?_⟩
    · have hkey := MemoryStore.key_of_not_hasDots htarget
      exact ⟨⟨_, hkey⟩, fun s refused => Storage.openRead_ne_invalidPath hbackend hkey refused⟩
    · exact DirectoryStore.resolve_of_not_hasDots (DirectoryStore.isPlace_root habsolute) htarget

/-- Dots and marks in the name of a module, and marks beside a dot in the templates. -/
theorem filesOn_stay_below_of_dots :
    (∀ template ∈ SearchPath.templates "./?.lua;lib/.?x/?",
      ¬HasDots (template.toList.filter (· ≠ '?'))) ∧
    ∀ file ∈ ["./////?.lua", "lib/.////?x/////?"],
      file ∈ filesOn "./?.lua;lib/.?x/?" "..//?" ∧
      ∀ store : Store, ¬HasDots (store.locate file).path.toList := by
  have htemplates : ∀ template ∈ SearchPath.templates "./?.lua;lib/.?x/?",
      ¬HasDots (template.toList.filter (· ≠ '?')) := by decide +kernel
  refine ⟨htemplates, fun file hfile => ?_⟩
  have hmem : file ∈ filesOn "./?.lua;lib/.?x/?" "..//?" := by
    revert file
    decide +kernel
  have hbelow := (filesOn_stay_below (H := Empty) htemplates "..//?").2 file hmem
  exact ⟨hmem, fun store => (hbelow.2 store).1⟩

end Searcher
end Sandbox
