import Sandbox.Proofs.Named
import Sandbox.Proofs.Store.Spelling
import Mathlib.Data.List.Nodup

/-!
# Names in listings

A memory has no directories of its own: it takes any keys, so a file may have a key that leads on to
other files. A listing then shows the name twice, for the file and for the directory, and this is the
only way in which a name is there twice. A router adds no such names: what its base has under the name
of a mount is hidden, and the mount is there once.
-/

namespace Sandbox

open MemoryStore (names)

namespace MemoryStore

/-- A file has this key, and there are files below it. -/
def Clashes (m : MemoryStore) (key : List String) : Prop :=
  (m.get? key).isSome ∧ ∃ rest, rest ≠ [] ∧ (m.get? (key ++ rest)).isSome

variable {m : MemoryStore} {directory : List String} {name : String}

/-! ## The names of files and directories -/

/-- No file is below a directory twice. -/
theorem Sound.nodup_below (h : m.Sound) (directory : List String) :
    ((m.below directory).map (·.1)).Nodup := by
  have hbelow : (m.below directory).map (·.1) = (m.files.map (·.1)).filterMap (rest? directory) := by
    rw [below, List.map_filterMap, List.filterMap_map]
    refine List.filterMap_congr fun e _ => ?_
    cases hrest : rest? directory e.1 <;> simp [hrest]
  rw [hbelow]
  refine h.nodup.filterMap fun key key' rest hrest hrest' => ?_
  obtain ⟨rfl, -⟩ := rest?_eq_some_iff.mp hrest
  exact (rest?_eq_some_iff.mp hrest').1.symm

/-- No two files in a directory have the same name. -/
theorem Sound.nodup_fileNames (h : m.Sound) (directory : List String) :
    ((m.fileEntries directory).map (·.name)).Nodup := by
  have hpaths : ((m.fileEntries directory).map fun e => [e.name]).Nodup := by
    have hone := congrArg (List.map (·.1)) (fileEntries_map m directory)
    rw [List.map_map] at hone
    exact (hone ▸ (h.nodup_below directory).sublist (List.filter_sublist.map _) :)
  have hnames : (((m.fileEntries directory).map (·.name)).map fun name => [name]).Nodup := by
    rwa [List.map_map]
  exact hnames.of_map _

/-- A name is that of a file in a directory if the key with this name behind the directory has one. -/
theorem Sound.mem_fileNames_iff (h : m.Sound) :
    name ∈ (m.fileEntries directory).map (·.name) ↔ (m.get? (directory ++ [name])).isSome := by
  rw [List.mem_map, Option.isSome_iff_exists]
  constructor
  · rintro ⟨e, he, rfl⟩
    obtain ⟨name, file, hmem, rfl⟩ := mem_fileEntries_iff.mp he
    exact ⟨file, h.mem_files_iff.mp hmem⟩
  · rintro ⟨file, hget⟩
    exact ⟨_, mem_fileEntries_iff.mpr ⟨name, file, h.mem_files_iff.mpr hget, rfl⟩, rfl⟩

/-- Files are below a directory if their keys lead on behind its names. -/
theorem Sound.below_ne_nil_iff (h : m.Sound) :
    m.below directory ≠ [] ↔ ∃ rest, rest ≠ [] ∧ (m.get? (directory ++ rest)).isSome := by
  simp only [Option.isSome_iff_exists, ← h.mem_files_iff]
  constructor
  · intro hne
    obtain ⟨f, hf⟩ := List.exists_mem_of_ne_nil _ hne
    obtain ⟨hrest, e, he, hkey⟩ := exists_mem_files hf
    exact ⟨f.1, hrest, e.2, hkey ▸ he⟩
  · rintro ⟨rest, hrest, file, hmem⟩ hnil
    have hfile : (rest, file.data.size) ∈ m.below directory := by
      refine List.mem_filterMap.mpr ⟨_, hmem, ?_⟩
      rw [rest?_eq_some_iff.mpr ⟨rfl, hrest⟩]
      rfl
    rw [hnil] at hfile
    exact List.not_mem_nil hfile

theorem nodup_directoryNames (m : MemoryStore) (directory : List String) :
    (m.directoryNames directory).Nodup := by
  rw [directoryNames_eq]
  exact nodup_eraseDups _

theorem shown_map_name (m : MemoryStore) (directory : List String) :
    (m.shown directory).map (·.name) =
      (m.fileEntries directory).map (·.name) ++ m.directoryNames directory := by
  rw [shown, List.map_append, List.map_map]
  congr 1
  exact List.map_id' ..

/-- A directory shows no two files and no two directories with the same name. -/
theorem Sound.nodup_shown (h : m.Sound) (directory : List String) :
    ((m.shown directory).map fun e => (e.name, e.isDirectory)).Nodup := by
  rw [shown, List.map_append]
  refine List.Nodup.append ?_ ?_ ?_
  · refine List.Nodup.of_map (·.1) ?_
    rw [List.map_map]
    exact h.nodup_fileNames directory
  · refine List.Nodup.of_map (·.1) ?_
    have hnames : (((m.directoryNames directory).map (directoryEntry directory)).map
        fun e => (e.name, e.isDirectory)).map (·.1) = m.directoryNames directory := by
      rw [List.map_map, List.map_map]
      exact List.map_id' ..
    rw [hnames]
    exact m.nodup_directoryNames directory
  · intro kind hfile hmade
    obtain ⟨e, he, rfl⟩ := List.mem_map.mp hfile
    obtain ⟨made, hmade, hkind⟩ := List.mem_map.mp hmade
    obtain ⟨name, -, rfl⟩ := List.mem_map.mp hmade
    have hsame := (Prod.mk.inj hkind).2
    rw [isDirectory_of_mem_fileEntries he] at hsame
    cases hsame

/-- A directory shows a name twice exactly if it is that of a file and leads on to others. -/
theorem Sound.one_lt_count_iff (h : m.Sound) :
    1 < ((m.shown directory).map (·.name)).count name ↔ m.Clashes (directory ++ [name]) := by
  have hmade : name ∈ m.directoryNames directory ↔
      ∃ rest, rest ≠ [] ∧ (m.get? (directory ++ [name] ++ rest)).isSome :=
    mem_directoryNames_iff.trans h.below_ne_nil_iff
  rw [Clashes, ← h.mem_fileNames_iff, ← hmade, shown_map_name, List.count_append,
    (h.nodup_fileNames directory).count, (m.nodup_directoryNames directory).count]
  by_cases hfile : name ∈ (m.fileEntries directory).map (·.name) <;>
    by_cases hdirectory : name ∈ m.directoryNames directory <;>
    simp only [hfile, hdirectory] <;> decide

end MemoryStore

/-! ## Listings of routers -/

namespace Storage

variable {s : Storage} {base : Store} {mounts : List (String × Store)} {path : String}

/-- A listing of a memory shows a name twice exactly if it is that of a file and leads on to others, and
no two files or two directories with the same name. -/
theorem names_of_list_memory {id : Nat} (hsound : (s.memory id).Sound) {entries : List Entry}
    (hlist : s.list (.memory id) path = .ok entries) :
    (entries.map fun e => (e.name, e.isDirectory)).Nodup ∧
      ∀ name, 1 < (entries.map (·.name)).count name ↔
        (s.memory id).Clashes (names path ++ [name]) := by
  rw [list] at hlist
  obtain ⟨-, -, rfl⟩ := MemoryStore.list_eq_ok_iff.mp hlist
  have hperm : (Entry.sort ((s.memory id).shown (names path))).Perm
      ((s.memory id).shown (names path)) := List.mergeSort_perm ..
  refine ⟨(hperm.map _).nodup_iff.mpr (hsound.nodup_shown _), fun name => ?_⟩
  rw [(hperm.map _).count_eq, hsound.one_lt_count_iff]

/-- Below its top a router lists what the store lists to which it hands the path on. -/
theorem list_of_handsOn {store next : Store} {rest : String} (hstep : store.HandsOn path next rest)
    (htop : Store.isTop path = false) : s.list store path = s.list next rest := by
  cases hstep with
  | mount hsplit hmount =>
    rw [list, htop, if_neg Bool.false_ne_true, hsplit]
    simp only [listMount_eq, hmount, Option.map_some, Option.getD_some]
  | base hfree =>
    rw [list, htop, if_neg Bool.false_ne_true]
    split
    case h_1 name rest hsplit =>
      rw [listMount_eq, hfree name rest hsplit]
      rfl
    case h_2 => rfl

/-- The entries at the top of a router over a base that shows these. -/
def mixed (mounts : List (String × Store)) (inner : List Entry) : List Entry :=
  inner.filter (fun e => !mounts.any (·.1 == e.name)) ++ mounts.map (mountEntry ·.1)

/-- At its top a router lists its mounts, and what its base has under other names. -/
theorem list_top (s : Storage) (base : Store) (mounts : List (String × Store))
    (htop : Store.isTop path = true) :
    s.list (.router base mounts) path = (s.list base "/").map (mixed mounts) := by
  rw [list, if_pos htop]
  cases s.list base "/" <;> rfl

variable {inner : List Entry} {name : String}

/-- The name of a mount hides what the base has, and stands there once. -/
theorem count_mixed (hnodup : (mounts.map (·.1)).Nodup) :
    ((mixed mounts inner).map (·.name)).count name =
      if name ∈ mounts.map (·.1) then 1 else (inner.map (·.name)).count name := by
  let kept (name : String) : Bool := !mounts.any (·.1 == name)
  have hkept : kept name = true ↔ name ∉ mounts.map (·.1) := by
    simp only [kept, Bool.not_eq_true', List.any_eq_false, beq_iff_eq, List.mem_map, not_exists, not_and]
  have hnames : (mixed mounts inner).map (·.name) =
      (inner.map (·.name)).filter kept ++ mounts.map (·.1) := by
    rw [mixed, List.map_append, List.map_map, List.filter_map]
    rfl
  rw [hnames, List.count_append, hnodup.count]
  by_cases hmount : name ∈ mounts.map (·.1)
  · rw [if_pos hmount, if_pos hmount, List.count_eq_zero.mpr]
    exact fun hmem => (hkept.mp (List.mem_filter.mp hmem).2) hmount
  · rw [if_neg hmount, if_neg hmount, List.count_filter (hkept.mpr hmount), Nat.add_zero]

/-- Mounts bring no two files and no two directories with the same name. -/
theorem nodup_mixed (hnodup : (mounts.map (·.1)).Nodup)
    (hinner : (inner.map fun e => (e.name, e.isDirectory)).Nodup) :
    ((mixed mounts inner).map fun e => (e.name, e.isDirectory)).Nodup := by
  rw [mixed, List.map_append]
  refine List.Nodup.append (hinner.sublist (List.filter_sublist.map _)) ?_ ?_
  · refine List.Nodup.of_map (·.1) ?_
    rw [List.map_map, List.map_map]
    exact hnodup
  · intro kind hbase hmount
    obtain ⟨e, he, rfl⟩ := List.mem_map.mp hbase
    obtain ⟨entry, hentry, hkind⟩ := List.mem_map.mp hmount
    obtain ⟨m, hm, rfl⟩ := List.mem_map.mp hentry
    have hfree := (List.mem_filter.mp he).2
    simp only [Bool.not_eq_true', List.any_eq_false, beq_iff_eq] at hfree
    exact hfree m hm (Prod.mk.inj hkind).1

/-- Whatever has been asked before, a listing of a router over memories shows no two files and no two
directories with the same name. At its top each mount is there once. A name is there twice exactly if
it is no mount shown beside it and the memory that is listed has a file of this name and files below
it. -/
theorem list_names {access : Access} (haccess : access.Reachable) {base : Nat}
    {mounts : List (String × Store)} (hnodup : (mounts.map (·.1)).Nodup)
    (hmounts : ∀ m ∈ mounts, ∃ id, m.2 = .memory id) {path : String} {entries : List Entry}
    (hlist : access.storage.list (.router (.memory base) mounts) path = .ok entries) :
    (entries.map fun e => (e.name, e.isDirectory)).Nodup ∧
    ∃ id directory beside,
      (if Store.isTop path then id = base ∧ directory = [] ∧ beside = mounts.map (·.1)
        else (Store.router (.memory base) mounts).Addresses path id directory ∧ beside = []) ∧
      (∀ name ∈ beside, (entries.map (·.name)).count name = 1) ∧
      ∀ name, 1 < (entries.map (·.name)).count name ↔
        name ∉ beside ∧ (access.storage.memory id).Clashes (directory ++ [name]) := by
  have hsound := haccess.sound.memories
  by_cases htop : Store.isTop path
  · rw [list_top _ _ _ htop] at hlist
    obtain ⟨inner, hinner, rfl⟩ : ∃ inner, access.storage.list (.memory base) "/" = .ok inner ∧
        mixed mounts inner = entries := by
      cases hinner : access.storage.list (.memory base) "/" <;> rw [hinner] at hlist <;> cases hlist
      exact ⟨_, rfl, rfl⟩
    obtain ⟨hkinds, hnames⟩ := names_of_list_memory (hsound base) hinner
    refine ⟨nodup_mixed hnodup hkinds, base, [], mounts.map (·.1), ?_, fun name hname => ?_,
      fun name => ?_⟩
    · rw [if_pos htop]
      exact ⟨rfl, rfl, rfl⟩
    · rw [count_mixed hnodup, if_pos hname]
    · have hroot : names "/" = [] := by decide
      have hname := hnames name
      rw [hroot] at hname
      rw [count_mixed hnodup, ← hname]
      by_cases hmount : name ∈ mounts.map (·.1) <;> simp [hmount]
  · obtain ⟨next, rest, hstep⟩ := Store.exists_handsOn (.memory base) mounts path
    obtain ⟨id, rfl⟩ : ∃ id, next = .memory id := by
      cases hstep with
      | mount _ hmount => exact hmounts _ (List.mem_of_find?_eq_some hmount)
      | base _ => exact ⟨base, rfl⟩
    rw [list_of_handsOn hstep (by simpa using htop)] at hlist
    obtain ⟨hkinds, hnames⟩ := names_of_list_memory (hsound id) hlist
    refine ⟨hkinds, id, names rest, [], ?_, by simp, by simpa using hnames⟩
    rw [if_neg htop]
    exact ⟨⟨rest, .router hstep (.memory id rest), rfl⟩, rfl⟩

/-- Two memories, the first with a file whose key leads on to another one and with a file that a mount
hides. -/
def clashing : Access :=
  (Access.run (.memory 0) (.fresh 2 .empty .epoch)
    [.insert 0 "m/b" "z".toUTF8, .insert 0 "a/b" "y".toUTF8, .insert 0 "a" "x".toUTF8]).1

theorem reachable_clashing : clashing.Reachable := (Access.Reachable.fresh 2 .empty .epoch).run _ _

theorem clashes_clashing : (clashing.storage.memory 0).Clashes ["a"] :=
  ⟨by decide +kernel, ["b"], by decide, by decide +kernel⟩

theorem exists_list_clashing :
    ∃ inner, clashing.storage.list (.memory 0) "/" = .ok inner := by
  have hroot : names "/" = [] := by decide
  rw [list]
  exact ⟨_, MemoryStore.list_eq_ok_iff.mpr ⟨by simp [hroot], fun _ => hroot, rfl⟩⟩

/-- The name of the mount is shown once, though the base has it, too. -/
theorem list_names_of_mount :
    clashing.Reachable ∧ ([("m", Store.memory 1)].map (·.1)).Nodup ∧
      (∀ m ∈ [("m", Store.memory 1)], ∃ id, m.2 = .memory id) ∧
      ∃ entries, clashing.storage.list (.router (.memory 0) [("m", .memory 1)]) "/" = .ok entries ∧
        (entries.map fun e => (e.name, e.isDirectory)).Nodup ∧
        (entries.map (·.name)).count "m" = 1 ∧ 1 < (entries.map (·.name)).count "a" := by
  have hnodup : ([("m", Store.memory 1)].map (·.1)).Nodup := by decide
  have hmounts : ∀ m ∈ [("m", Store.memory 1)], ∃ id, m.2 = .memory id :=
    List.forall_mem_singleton.mpr ⟨1, rfl⟩
  obtain ⟨inner, hinner⟩ := exists_list_clashing
  have htop : Store.isTop "/" = true := by decide
  have hlist := (list_top clashing.storage (.memory 0) [("m", .memory 1)] htop).trans
    (congrArg (Except.map _) hinner)
  obtain ⟨hkinds, id, directory, beside, hwhere, hbeside, hcount⟩ :=
    list_names reachable_clashing hnodup hmounts hlist
  rw [if_pos htop] at hwhere
  obtain ⟨rfl, rfl, rfl⟩ := hwhere
  exact ⟨reachable_clashing, hnodup, hmounts, _, hlist, hkinds, hbeside "m" (by simp),
    (hcount "a").mpr ⟨by simp, clashes_clashing⟩⟩

/-- Without mounts, too, two entries of a listing have the same name. -/
theorem list_names_twice :
    clashing.Reachable ∧
      ∃ entries, clashing.storage.list (.router (.memory 0) []) "" = .ok entries ∧
        ¬(entries.map (·.name)).Nodup := by
  obtain ⟨inner, hinner⟩ := exists_list_clashing
  have htop : Store.isTop "" = true := by decide
  have hlist := (list_top clashing.storage (.memory 0) [] htop).trans (congrArg (Except.map _) hinner)
  refine ⟨reachable_clashing, _, hlist, fun hnodup => ?_⟩
  have htwice := ((names_of_list_memory (reachable_clashing.sound.memories 0) hinner).2 "a").mpr
    clashes_clashing
  have honce := List.nodup_iff_count_le_one.mp hnodup "a"
  rw [count_mixed (by simp), if_neg (by simp)] at honce
  omega

end Storage
end Sandbox
