import Sandbox.Proofs.Store.Memory
import Sandbox.Proofs.Store.Walk
import Mathlib.Data.List.Perm.Basic

/-!
# Listings of memory stores

A memory store has no directories: it makes them up from its keys, level by level. `MemoryStore.below`
is what a directory holds at any depth. A listing shows it split by the first name below the directory,
so a walk from a directory meets just the files below it, each once.
-/

namespace Sandbox

/-- Things in groups by a name, in the order in which the names come first. -/
theorem perm_flatMap_filter {α β : Type} [BEq β] [LawfulBEq β] (name : α → β) (things : List α) :
    things.Perm ((things.map name).eraseDups.flatMap fun n => things.filter (name · == n)) := by
  match things with
  | [] => rfl
  | first :: rest =>
    let others := rest.filter (name · != name first)
    have hlength : others.length < (first :: rest).length :=
      Nat.lt_succ_of_le (List.length_filter_le ..)
    have hothers := perm_flatMap_filter name others
    have hnames : ((first :: rest).map name).eraseDups = name first :: (others.map name).eraseDups := by
      rw [List.map_cons, List.eraseDups_cons, List.filter_map]
      rfl
    have hsplit : ((first :: rest).filter (name · == name first) ++ others).Perm (first :: rest) := by
      have hperm := List.filter_append_perm (name · == name first) (first :: rest)
      rwa [List.filter_cons_of_neg (p := fun x => !(name x == name first)) (by simp)] at hperm
    have hgroups : ((others.map name).eraseDups.flatMap fun n => others.filter (name · == n)) =
        (others.map name).eraseDups.flatMap fun n => (first :: rest).filter (name · == n) := by
      refine List.flatMap_congr fun n hn => ?_
      obtain ⟨other, hother, rfl⟩ := List.mem_map.mp (List.mem_eraseDups.mp hn)
      have hne : name other ≠ name first := by simpa using (List.mem_filter.mp hother).2
      rw [List.filter_cons_of_neg (by simpa using Ne.symm hne), List.filter_filter]
      refine List.filter_congr fun x _ => ?_
      by_cases hx : name x = name other <;> simp [hx, hne]
    rw [hnames, List.flatMap_cons, ← hgroups]
    exact hsplit.symm.trans (hothers.append_left _)
termination_by things.length
decreasing_by exact hlength

namespace MemoryStore

/-- The names behind those of a directory, if there are any. -/
def rest? (directory key : List String) : Option (List String) :=
  if directory.isPrefixOf key ∧ directory.length < key.length then some (key.drop directory.length)
  else none

/-- The files below a directory, by their names behind those of the directory, with their sizes. -/
def below (m : MemoryStore) (directory : List String) : List (List String × Nat) :=
  m.files.filterMap fun e => (rest? directory e.1).map fun rest => (rest, e.2.data.size)

theorem rest?_eq_some_iff {directory key rest : List String} :
    rest? directory key = some rest ↔ key = directory ++ rest ∧ rest ≠ [] := by
  unfold rest?
  constructor
  · intro h
    split at h
    · rename_i hprefix
      obtain ⟨tail, rfl⟩ := List.isPrefixOf_iff_prefix.mp hprefix.1
      cases h
      simpa [List.length_pos_iff] using hprefix.2
    · cases h
  · rintro ⟨rfl, hne⟩
    simp [List.length_pos_iff.mpr hne]

theorem rest?_eq_none_iff {directory key : List String} :
    rest? directory key = none ↔ ∀ rest, key = directory ++ rest → rest = [] := by
  rw [Option.eq_none_iff_forall_ne_some]
  simp only [ne_eq, rest?_eq_some_iff, not_and, not_not]

/-- A key shows in a directory by the first name behind those of the directory. -/
theorem childOf_eq (directory key : List String) :
    childOf directory key = match rest? directory key with
      | some [name] => some (name, false)
      | some (name :: _) => some (name, true)
      | _ => none := by
  unfold childOf
  by_cases hprefix : directory.isPrefixOf key
  · obtain ⟨tail, rfl⟩ := List.isPrefixOf_iff_prefix.mp hprefix
    rw [if_pos hprefix, List.drop_left]
    cases tail with
    | nil => simp [rest?]
    | cons name more =>
      rw [rest?_eq_some_iff.mpr ⟨rfl, List.cons_ne_nil name more⟩]
      cases more <;> rfl
  · have hnone : rest? directory key = none := by simp [rest?, hprefix]
    rw [if_neg hprefix, hnone]

/-- The files that a listing shows are those with one more name than the directory. -/
theorem fileEntries_map (m : MemoryStore) (directory : List String) :
    (m.fileEntries directory).map (fun e => ([e.name], e.size)) =
      (m.below directory).filter (·.1.length == 1) := by
  rw [fileEntries, below, List.map_filterMap, List.filter_filterMap]
  refine List.filterMap_congr fun e _ => ?_
  obtain ⟨key, file⟩ := e
  simp only [childOf_eq]
  rcases rest? directory key with _ | (_ | ⟨name, _ | ⟨next, more⟩⟩) <;> simp [Entry.of, Option.filter]

/-- The entry of a file is no directory. -/
theorem isDirectory_of_mem_fileEntries {m : MemoryStore} {directory : List String} {e : Entry}
    (he : e ∈ m.fileEntries directory) : e.isDirectory = false := by
  obtain ⟨⟨key, file⟩, -, hentry⟩ := List.mem_filterMap.mp he
  dsimp only at hentry
  split at hentry
  · cases hentry
    rfl
  · cases hentry

/-- The directories that a listing shows are the first names of the files further below. -/
theorem directoryNames_eq (m : MemoryStore) (directory : List String) :
    m.directoryNames directory =
      (((m.below directory).filter (!·.1.length == 1)).map (·.1.headD "")).eraseDups := by
  rw [directoryNames, below, List.filter_filterMap, List.map_filterMap]
  refine congrArg List.eraseDups (List.filterMap_congr fun e _ => ?_)
  obtain ⟨key, file⟩ := e
  have hne : ∀ rest, rest? directory key = some rest → key = directory ++ rest ∧ rest ≠ [] :=
    fun _ => rest?_eq_some_iff.mp
  simp only [childOf_eq]
  rcases hrest : rest? directory key with _ | (_ | ⟨name, _ | ⟨next, more⟩⟩)
  · rfl
  · exact absurd rfl (hne _ hrest).2
  · simp [Option.filter]
  · simp [Option.filter]

/-- Behind one more name there is what is left of the names behind the directory. -/
theorem rest?_append_singleton (directory key : List String) (name : String) :
    rest? (directory ++ [name]) key = match rest? directory key with
      | some (first :: next :: more) => if first = name then some (next :: more) else none
      | _ => none := by
  rcases hrest : rest? directory key with _ | (_ | ⟨first, _ | ⟨next, more⟩⟩)
  · refine rest?_eq_none_iff.mpr fun rest heq => ?_
    exact absurd (rest?_eq_none_iff.mp hrest (name :: rest) (by simp [heq])) (by simp)
  · exact absurd rfl (rest?_eq_some_iff.mp hrest).2
  · obtain ⟨rfl, -⟩ := rest?_eq_some_iff.mp hrest
    refine rest?_eq_none_iff.mpr fun rest heq => ?_
    rw [List.append_assoc, List.append_cancel_left_eq] at heq
    exact (List.cons.inj heq).2.symm
  · obtain ⟨rfl, -⟩ := rest?_eq_some_iff.mp hrest
    by_cases heq : first = name
    · subst heq
      rw [rest?_eq_some_iff.mpr ⟨by simp, List.cons_ne_nil next more⟩]
      simp
    · simp only [if_neg heq]
      refine rest?_eq_none_iff.mpr fun rest happend => ?_
      rw [List.append_assoc, List.append_cancel_left_eq] at happend
      exact absurd (List.cons.inj happend).1 heq

/-- What a directory shown in a listing holds is what is below by its name and more. -/
theorem below_append_singleton (m : MemoryStore) (directory : List String) (name : String) :
    (m.below (directory ++ [name])).map (fun f => (name :: f.1, f.2)) =
      ((m.below directory).filter (!·.1.length == 1)).filter (·.1.headD "" == name) := by
  rw [below, below, List.map_filterMap, List.filter_filterMap, List.filter_filterMap]
  refine List.filterMap_congr fun e _ => ?_
  rw [rest?_append_singleton]
  rcases hrest : rest? directory e.1 with _ | (_ | ⟨first, _ | ⟨next, more⟩⟩)
  · rfl
  · exact absurd rfl (rest?_eq_some_iff.mp hrest).2
  · simp [Option.filter]
  · by_cases heq : first = name <;> simp [Option.filter, heq]

/-- Below the root there are all files. -/
theorem Sound.below_nil {m : MemoryStore} (h : m.Sound) :
    m.below [] = m.files.map fun e => (e.1, e.2.data.size) := by
  rw [below, ← List.filterMap_eq_map]
  refine List.filterMap_congr fun e he => ?_
  rw [rest?_eq_some_iff.mpr ⟨(List.nil_append _).symm, (h.canonical e he).ne_nil⟩]
  rfl

/-- A file below a directory has a key that begins with the names of the directory. -/
theorem exists_mem_files {m : MemoryStore} {directory : List String} {f : List String × Nat}
    (hf : f ∈ m.below directory) : f.1 ≠ [] ∧ ∃ e ∈ m.files, e.1 = directory ++ f.1 := by
  obtain ⟨e, he, hfile⟩ := List.mem_filterMap.mp hf
  obtain ⟨rest, hrest, rfl⟩ := Option.map_eq_some_iff.mp hfile
  obtain ⟨hkey, hne⟩ := rest?_eq_some_iff.mp hrest
  exact ⟨hne, e, he, hkey⟩

/-- A directory with files below it shows a file or a directory. -/
theorem exists_child {m : MemoryStore} {directory : List String} (hbelow : m.below directory ≠ []) :
    m.fileEntries directory ≠ [] ∨ m.directoryNames directory ≠ [] := by
  obtain ⟨f, hf⟩ := List.exists_mem_of_ne_nil _ hbelow
  by_cases hone : f.1.length = 1
  · refine .inl fun hnil => ?_
    have hmem : f ∈ (m.below directory).filter (·.1.length == 1) :=
      List.mem_filter.mpr ⟨hf, by simpa using hone⟩
    rw [← fileEntries_map, hnil] at hmem
    exact List.not_mem_nil hmem
  · refine .inr fun hnil => ?_
    have hmem : f.1.headD "" ∈ m.directoryNames directory := by
      rw [directoryNames_eq]
      exact List.mem_eraseDups.mpr (List.mem_map_of_mem (List.mem_filter.mpr ⟨hf, by simpa using hone⟩))
    rw [hnil] at hmem
    exact List.not_mem_nil hmem

/-- The entry of a directory that the store makes up. -/
def directoryEntry (directory : List String) (name : String) : Entry :=
  .of name ("/".intercalate (directory ++ [name])) true .epoch 0

/-- What a directory shows: its files and then its directories. -/
def shown (m : MemoryStore) (directory : List String) : List Entry :=
  m.fileEntries directory ++ (m.directoryNames directory).map (directoryEntry directory)

/-- A file shown in a directory is one of the store, with one more name in its key. -/
theorem mem_fileEntries_iff {m : MemoryStore} {directory : List String} {e : Entry} :
    e ∈ m.fileEntries directory ↔ ∃ name file, (directory ++ [name], file) ∈ m.files ∧
      e = .of name ("/".intercalate (directory ++ [name])) false file.modified file.data.size := by
  simp only [fileEntries, List.mem_filterMap, Prod.exists, childOf_eq]
  constructor
  · rintro ⟨key, file, hmem, hentry⟩
    rcases hrest : rest? directory key with _ | (_ | ⟨name, _ | ⟨next, more⟩⟩)
    all_goals rw [hrest] at hentry
    case some.cons.nil =>
      obtain ⟨rfl, -⟩ := rest?_eq_some_iff.mp hrest
      exact ⟨name, file, hmem, (Option.some.inj hentry).symm⟩
    all_goals cases hentry
  · rintro ⟨name, file, hmem, rfl⟩
    refine ⟨directory ++ [name], file, hmem, ?_⟩
    rw [rest?_eq_some_iff.mpr ⟨rfl, List.cons_ne_nil name []⟩]

/-- A directory shows the directories with files below them. -/
theorem mem_directoryNames_iff {m : MemoryStore} {directory : List String} {name : String} :
    name ∈ m.directoryNames directory ↔ m.below (directory ++ [name]) ≠ [] := by
  have hgroup : m.below (directory ++ [name]) = [] ↔
      ((m.below directory).filter (!·.1.length == 1)).filter (·.1.headD "" == name) = [] := by
    rw [← below_append_singleton, List.map_eq_nil_iff]
  rw [directoryNames_eq, List.mem_eraseDups, ne_eq, hgroup, List.filter_eq_nil_iff]
  simp only [List.mem_map, beq_iff_eq, not_forall, not_not, exists_prop]

/-- A listing shows what is in the directory that the path addresses; only the root may be empty. -/
theorem list_eq (m : MemoryStore) (path : String) :
    m.list path =
      if ".." ∈ names path then .error (.invalidPath path)
      else if m.shown (names path) = [] ∧ names path ≠ [] then .error (.notFound path)
      else .ok (Entry.sort (m.shown (names path))) := by
  rw [list, key_eq]
  by_cases hdots : ".." ∈ names path
  · rw [if_pos hdots, if_pos hdots]
    rfl
  · rw [if_neg hdots, if_neg hdots]
    have hempty : ((m.fileEntries (names path)).isEmpty &&
        ((m.directoryNames (names path)).map (directoryEntry (names path))).isEmpty &&
        !(names path).isEmpty) = true ↔ m.shown (names path) = [] ∧ names path ≠ [] := by
      simp [shown, and_assoc]
    by_cases hnothing : m.shown (names path) = [] ∧ names path ≠ []
    · rw [if_pos hnothing]
      exact if_pos (hempty.mpr hnothing)
    · rw [if_neg hnothing]
      exact if_neg (mt hempty.mp hnothing)

/-- A path without `..` can be listed if it leads to the root or something is shown there. -/
theorem list_eq_ok_iff {m : MemoryStore} {path : String} {entries : List Entry} :
    m.list path = .ok entries ↔ ".." ∉ names path ∧
      (m.shown (names path) = [] → names path = []) ∧ entries = Entry.sort (m.shown (names path)) := by
  rw [list_eq]
  by_cases hdots : ".." ∈ names path
  · simp [hdots]
  · by_cases hnothing : m.shown (names path) = [] ∧ names path ≠ []
    · simp [hdots, hnothing]
    · have hroot : m.shown (names path) = [] → names path = [] := by simpa using hnothing
      rw [if_neg hdots, if_neg hnothing, Except.ok.injEq]
      exact ⟨fun h => ⟨hdots, hroot, h.symm⟩, fun h => h.2.2.symm⟩

/-- A directory with files below it shows something. -/
theorem shown_ne_nil {m : MemoryStore} {directory : List String} (hbelow : m.below directory ≠ []) :
    m.shown directory ≠ [] := by
  rw [shown, ne_eq, List.append_eq_nil_iff, List.map_eq_nil_iff, not_and_or]
  exact exists_child hbelow

/-- The root and every directory with files below it can be listed, and the listing shows the files
and the directories in it. -/
theorem list_eq_ok {m : MemoryStore} {directory : List String}
    (hnames : ∀ name ∈ directory, IsName name) (hbelow : directory = [] ∨ m.below directory ≠ []) :
    ∃ entries, m.list (Path.leading directory) = .ok entries ∧ entries.Perm (m.shown directory) := by
  refine ⟨Entry.sort (m.shown directory), list_eq_ok_iff.mpr ?_, List.mergeSort_perm ..⟩
  rw [names_leading hnames]
  exact ⟨fun hdots => (hnames _ hdots).ne_dots rfl,
    fun hnil => hbelow.resolve_right fun hne => shown_ne_nil hne hnil, rfl⟩

/-- A directory that is shown has files below it, and is named by a name of their keys. -/
theorem of_mem_directoryNames {m : MemoryStore} (hsound : m.Sound) {directory : List String}
    {name : String} (hname : name ∈ m.directoryNames directory) :
    IsName name ∧ m.below (directory ++ [name]) ≠ [] ∧
      ∀ n, (∀ f ∈ m.below directory, f.1.length ≤ n + 1) →
        ∀ f ∈ m.below (directory ++ [name]), f.1.length ≤ n := by
  have hgroup := below_append_singleton m directory name
  rw [directoryNames_eq, List.mem_eraseDups] at hname
  obtain ⟨f, hf, rfl⟩ := List.mem_map.mp hname
  have hbelow := (List.mem_filter.mp hf).1
  obtain ⟨hne, e, he, hkey⟩ := exists_mem_files hbelow
  refine ⟨?_, fun hnil => ?_, fun n hlength g hg => ?_⟩
  · obtain ⟨first, more, hf⟩ := List.exists_cons_of_ne_nil hne
    refine (hsound.canonical e he).isName _ ?_
    simp [hkey, hf]
  · rw [hnil, List.map_nil, eq_comm, List.filter_eq_nil_iff] at hgroup
    exact hgroup f hf (by simp)
  · have hmem : (f.1.headD "" :: g.1, g.2) ∈
        (m.below (directory ++ [f.1.headD ""])).map fun g => (f.1.headD "" :: g.1, g.2) :=
      List.mem_map_of_mem hg
    rw [hgroup] at hmem
    have := hlength _ (List.mem_filter.mp (List.mem_filter.mp hmem).1).1
    simpa using this

/-- Every name that a listing shows is a name of keys. -/
theorem isName_of_mem_list {m : MemoryStore} (hsound : m.Sound) {directory : List String}
    {entries : List Entry} (hnames : ∀ name ∈ directory, IsName name)
    (hbelow : directory = [] ∨ m.below directory ≠ [])
    (hlist : m.list (Path.leading directory) = .ok entries) : ∀ e ∈ entries, IsName e.name := by
  obtain ⟨shown, hshown, hperm⟩ := list_eq_ok hnames hbelow
  obtain rfl : shown = entries := Except.ok.inj (hshown.symm.trans hlist)
  intro e he
  rcases List.mem_append.mp (hperm.mem_iff.mp he) with hfile | hmade
  · obtain ⟨name, file, hstored, rfl⟩ := mem_fileEntries_iff.mp hfile
    exact (hsound.canonical _ hstored).isName name (by simp)
  · obtain ⟨name, hname, rfl⟩ := List.mem_map.mp hmade
    exact (of_mem_directoryNames hsound hname).1

end MemoryStore

namespace Storage

variable {s : Storage} {id : Nat}

/-- A walk from a directory meets what is below it if the walks from the directories in it do. -/
theorem walks_of_directories {directory : List String}
    (hnames : ∀ name ∈ directory, MemoryStore.IsName name)
    (hbelow : directory = [] ∨ (s.memory id).below directory ≠ [])
    (hinner : ∀ name ∈ (s.memory id).directoryNames directory, ∃ found,
      Walks s (.memory id) (directory ++ [name]) found ∧
        found.Perm ((s.memory id).below (directory ++ [name]))) :
    ∃ found, Walks s (.memory id) directory found ∧
      found.Perm ((s.memory id).below directory) := by
  choose! under hunder using hinner
  obtain ⟨entries, hlist, hentries⟩ := MemoryStore.list_eq_ok hnames hbelow
  refine ⟨entries.flatMap (filesOf under), .list hlist fun e he hdirectory => ?_, ?_⟩
  · rcases List.mem_append.mp (hentries.mem_iff.mp he) with hfile | hmade
    · rw [MemoryStore.isDirectory_of_mem_fileEntries hfile] at hdirectory
      cases hdirectory
    · obtain ⟨name, hname, rfl⟩ := List.mem_map.mp hmade
      exact (hunder name hname).1
  · let all := (s.memory id).below directory
    let further := all.filter (!·.1.length == 1)
    have hfiles : ((s.memory id).fileEntries directory).flatMap (filesOf under) =
        all.filter (·.1.length == 1) := by
      rw [← MemoryStore.fileEntries_map, List.map_eq_flatMap]
      refine List.flatMap_congr fun e he => ?_
      rw [filesOf, MemoryStore.isDirectory_of_mem_fileEntries he]
      rfl
    have hdirectories : (((s.memory id).directoryNames directory).map
        (MemoryStore.directoryEntry directory)).flatMap (filesOf under) |>.Perm further := by
      rw [List.flatMap_map]
      have hgroups : (((s.memory id).directoryNames directory).flatMap fun name =>
          filesOf under (MemoryStore.directoryEntry directory name)).Perm
          (((s.memory id).directoryNames directory).flatMap fun name =>
            further.filter (·.1.headD "" == name)) := by
        refine List.Perm.flatMap_left _ fun name hname => ?_
        rw [← MemoryStore.below_append_singleton]
        exact (hunder name hname).2.map _
      rw [MemoryStore.directoryNames_eq] at hgroups ⊢
      exact hgroups.trans (perm_flatMap_filter (·.1.headD "") further).symm
    have hsplit := (hentries.flatMap_right (filesOf under))
    rw [MemoryStore.shown, List.flatMap_append, hfiles] at hsplit
    exact (hsplit.trans (hdirectories.append_left _)).trans (List.filter_append_perm _ all)

/-- A walk through a memory meets what is below where it starts. -/
theorem walks_memory (hsound : (s.memory id).Sound) {directory : List String} (n : Nat)
    (hnames : ∀ name ∈ directory, MemoryStore.IsName name)
    (hbelow : directory = [] ∨ (s.memory id).below directory ≠ [])
    (hlength : ∀ f ∈ (s.memory id).below directory, f.1.length ≤ n) :
    ∃ found, Walks s (.memory id) directory found ∧
      found.Perm ((s.memory id).below directory) := by
  induction n generalizing directory with
  | zero =>
    refine walks_of_directories hnames hbelow fun name hname => ?_
    obtain ⟨-, hne, hshorter⟩ := MemoryStore.of_mem_directoryNames hsound hname
    obtain ⟨f, hf⟩ := List.exists_mem_of_ne_nil _ hne
    have hempty := hshorter 0 (fun g hg => Nat.le_succ_of_le (hlength g hg)) f hf
    exact absurd (List.length_eq_zero_iff.mp (by omega)) (MemoryStore.exists_mem_files hf).1
  | succ n ih =>
    refine walks_of_directories hnames hbelow fun name hname => ?_
    obtain ⟨hisName, hne, hshorter⟩ := MemoryStore.of_mem_directoryNames hsound hname
    refine ih (fun other hother => ?_) (.inr hne) (hshorter n hlength)
    rcases List.mem_append.mp hother with hother | hother
    · exact hnames other hother
    · rw [List.mem_singleton.mp hother]
      exact hisName

end Storage
end Sandbox
