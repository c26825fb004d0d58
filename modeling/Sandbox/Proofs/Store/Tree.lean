import Sandbox.Proofs.Store.Composition

/-!
# One tree of many stores

Listing goes through a composition of stores in another way than opening does: the top of a router is
put together from the base and the mounts, and everything below is left to one of them. Both agree.
`walk_files` states that a walk from the root never fails and meets just the files of the composition,
each once and with its size, and that each of them can be opened and has its bytes.
-/

namespace Sandbox.Storage

open Sandbox.Path (leading)
open Store (IsStep)

variable {s : Storage}

/-- The files of a store with their sizes in place of their bytes. -/
def sizes (s : Storage) (store : Store) : List (List String × Nat) :=
  (files s store).map fun f => (f.1, f.2.size)

/-- The root of the store shows these entries, and below them a walk meets all files of the store. -/
structure Shows (s : Storage) (store : Store) (entries : List Entry)
    (under : String → List (List String × Nat)) : Prop where
  root : s.list store "" = .ok entries
  slash : s.list store "/" = .ok entries
  isStep : ∀ e ∈ entries, IsStep e.name
  walks : ∀ e ∈ entries, e.isDirectory = true → Walks s store [e.name] (under e.name)
  perm : (entries.flatMap (filesOf under)).Perm (sizes s store)

/-- A walk from the root meets all files. -/
theorem Shows.walks_root {store : Store} {entries : List Entry}
    {under : String → List (List String × Nat)} (h : Shows s store entries under) :
    Walks s store [] (entries.flatMap (filesOf under)) :=
  .list h.root h.walks

/-- What an entry stands for begins with its name. -/
theorem headD_of_mem_filesOf {under : String → List (List String × Nat)} {e : Entry}
    {f : List String × Nat} (hf : f ∈ filesOf under e) : f.1.headD "" = e.name := by
  unfold filesOf at hf
  split at hf
  · obtain ⟨g, -, rfl⟩ := List.mem_map.mp hf
    rfl
  · rw [List.mem_singleton.mp hf]
    rfl

/-- Leaving out entries leaves out the files that begin with their names. -/
theorem filter_flatMap_filesOf (under : String → List (List String × Nat)) (kept : String → Bool)
    (entries : List Entry) :
    (entries.flatMap (filesOf under)).filter (fun f => kept (f.1.headD "")) =
      (entries.filter fun e => kept e.name).flatMap (filesOf under) := by
  induction entries with
  | nil => rfl
  | cons e rest ih =>
    rw [List.flatMap_cons, List.filter_append, ih, List.filter_cons]
    have hnames : ∀ f ∈ filesOf under e, kept (f.1.headD "") = kept e.name := fun f hf => by
      rw [headD_of_mem_filesOf hf]
    cases hkept : kept e.name with
    | true =>
      rw [if_pos rfl, List.flatMap_cons,
        List.filter_eq_self.mpr fun f hf => (hnames f hf).trans hkept]
    | false =>
      have hnone : (filesOf under e).filter (fun f => kept (f.1.headD "")) = [] :=
        List.filter_eq_nil_iff.mpr fun f hf => Bool.eq_false_iff.mp ((hnames f hf).trans hkept)
      rw [hnone, if_neg (by simp), List.nil_append]

/-! ## Memories -/

/-- Paths in a list are no longer than some number. -/
theorem exists_length_le (paths : List (List String × Nat)) : ∃ n, ∀ f ∈ paths, f.1.length ≤ n := by
  induction paths with
  | nil => exact ⟨0, by simp⟩
  | cons f rest ih =>
    obtain ⟨n, hn⟩ := ih
    refine ⟨max f.1.length n, List.forall_mem_cons.mpr ⟨Nat.le_max_left _ _, fun g hg => ?_⟩⟩
    exact Nat.le_trans (hn g hg) (Nat.le_max_right _ _)

/-- The root of a memory may be given by a slash, too. -/
theorem list_memory_slash (s : Storage) (id : Nat) :
    s.list (.memory id) "/" = s.list (.memory id) "" := by
  have hempty : MemoryStore.key "" = .ok [] := by decide
  have hslash : MemoryStore.key "/" = .ok [] := by decide
  simp only [list, MemoryStore.list, hempty, hslash, bind, Except.bind, List.isEmpty_nil,
    Bool.not_true, Bool.and_false, Bool.false_eq_true, if_false]

/-- A memory shows its files. -/
theorem shows_memory {id : Nat} (hsound : (s.memory id).Sound) :
    ∃ entries under, Shows s (.memory id) entries under := by
  obtain ⟨n, hlength⟩ := exists_length_le ((s.memory id).below [])
  obtain ⟨found, hwalk, hperm⟩ := walks_memory hsound n (by simp) (.inl rfl) hlength
  cases hwalk with
  | @list _ entries under hlist hunder =>
    refine ⟨entries, under, hlist, ?_, fun e he => ?_, hunder, ?_⟩
    · rw [list_memory_slash]
      exact hlist
    · have hname := MemoryStore.isName_of_mem_list hsound (by simp) (.inl rfl) hlist e he
      exact ⟨hname.ne_empty, hname.no_slash⟩
    · rw [sizes, files, List.map_map]
      rw [hsound.below_nil] at hperm
      exact hperm

/-! ## Read-only stores -/

theorem Shows.readOnly {inner : Store} {entries : List Entry}
    {under : String → List (List String × Nat)} (h : Shows s inner entries under) :
    Shows s (.readOnly inner) entries under := by
  refine ⟨by rw [list, h.root], by rw [list, h.slash], h.isStep, fun e he hdirectory => ?_, ?_⟩
  · have hlist (rest : List String) : s.list (.readOnly inner) (leading ([e.name] ++ rest)) =
        s.list inner (leading ([e.name] ++ rest)) := by rw [list]
    exact (h.walks e he hdirectory).transfer hlist [] rfl
  · simpa only [sizes, files] using h.perm

/-! ## Routers -/

section Routers

variable {base : Store} {mounts : List (String × Store)}

/-- What is under a name at the top of a router. -/
def underRouter (mounts : List (String × Store)) (under : String → List (List String × Nat))
    (found : String × Store → List (List String × Nat)) (name : String) : List (List String × Nat) :=
  match mounts.find? (·.1 == name) with
  | some m => found m
  | none => under name

/-- Behind a name that is no mount, a walk through a router is one through its base. -/
theorem Walks.router_base {name : String} (hname : IsStep name) (hfree : ∀ m ∈ mounts, m.1 ≠ name)
    {found : List (List String × Nat)} (h : Walks s base [name] found) :
    Walks s (.router base mounts) [name] found := by
  have hlist (rest : List String) : s.list (.router base mounts) (leading ([name] ++ rest)) =
      s.list base (leading ([name] ++ rest)) := by
    rw [List.singleton_append, list_router_leading hname, listMount_eq, Store.find?_free hfree,
      Option.map_none, Option.getD_none]
  exact h.transfer hlist [] rfl

/-- Behind the name of a mount, a walk through a router is one through the mount. -/
theorem Walks.router_mount (hnodup : (mounts.map (·.1)).Nodup) {m : String × Store} (hm : m ∈ mounts)
    (hname : IsStep m.1) {found : List (List String × Nat)} (h : Walks s m.2 [] found) :
    Walks s (.router base mounts) [m.1] found := by
  have hlist (rest : List String) : s.list (.router base mounts) (leading ([m.1] ++ rest)) =
      s.list m.2 (leading ([] ++ rest)) := by
    rw [List.singleton_append, list_router_leading hname, listMount_eq, Store.find?_mount hnodup hm,
      Option.map_some, Option.getD_some, List.nil_append]
  exact h.transfer hlist [] rfl

/-- The files of a router with their sizes. -/
theorem sizes_router : sizes s (.router base mounts) =
    (sizes s base).filter (fun f => !mounts.any (·.1 == f.1.headD "")) ++
      mounts.flatMap fun m => (sizes s m.2).map fun f => (m.1 :: f.1, f.2) := by
  simp only [sizes, files, mountFiles_eq, List.map_append, List.map_flatMap, List.map_map,
    List.filter_map]
  rfl

/-- A router shows what its base shows, without what a mount hides, and what its mounts show. -/
theorem shows_router {entries : List Entry} {under : String → List (List String × Nat)}
    (hbase : Shows s base entries under) (hnodup : (mounts.map (·.1)).Nodup)
    {found : String × Store → List (List String × Nat)}
    (hmounts : ∀ m ∈ mounts, IsStep m.1 ∧ Walks s m.2 [] (found m) ∧ (found m).Perm (sizes s m.2)) :
    Shows s (.router base mounts)
      (entries.filter (fun e => !mounts.any (·.1 == e.name)) ++ mounts.map (mountEntry ·.1))
      (underRouter mounts under found) := by
  have hbaseUnder {name : String} (hfree : (!mounts.any (·.1 == name)) = true) :
      (∀ m ∈ mounts, m.1 ≠ name) ∧ underRouter mounts under found name = under name := by
    have hne : ∀ m ∈ mounts, m.1 ≠ name := by simpa using hfree
    exact ⟨hne, by rw [underRouter, Store.find?_free hne]⟩
  have hmountUnder {m : String × Store} (hm : m ∈ mounts) :
      underRouter mounts under found m.1 = found m := by
    rw [underRouter, Store.find?_mount hnodup hm]
  refine ⟨?_, ?_, fun e he => ?_, fun e he hdirectory => ?_, ?_⟩
  · rw [list, if_pos (by decide), hbase.slash]
    rfl
  · rw [list, if_pos (by decide), hbase.slash]
    rfl
  · rcases List.mem_append.mp he with he | he
    · exact hbase.isStep e (List.mem_of_mem_filter he)
    · obtain ⟨m, hm, rfl⟩ := List.mem_map.mp he
      exact (hmounts m hm).1
  · rcases List.mem_append.mp he with he | he
    · obtain ⟨he, hfree⟩ := List.mem_filter.mp he
      obtain ⟨hne, hunder⟩ := hbaseUnder hfree
      rw [hunder]
      exact (hbase.walks e he hdirectory).router_base (hbase.isStep e he) hne
    · obtain ⟨m, hm, rfl⟩ := List.mem_map.mp he
      obtain ⟨hstep, hwalk, -⟩ := hmounts m hm
      have hmount : Walks s (.router base mounts) [m.1] (found m) :=
        hwalk.router_mount hnodup hm hstep
      rw [← hmountUnder hm] at hmount
      exact hmount
  · rw [List.flatMap_append, sizes_router]
    refine List.Perm.append ?_ ?_
    · have htop : (entries.filter fun e => !mounts.any (·.1 == e.name)).flatMap
          (filesOf (underRouter mounts under found)) =
          (entries.filter fun e => !mounts.any (·.1 == e.name)).flatMap (filesOf under) := by
        refine List.flatMap_congr fun e he => ?_
        rw [filesOf, filesOf, (hbaseUnder (List.mem_filter.mp he).2).2]
      rw [htop, ← filter_flatMap_filesOf under fun name => !mounts.any (·.1 == name)]
      exact hbase.perm.filter _
    · rw [List.flatMap_map]
      refine List.Perm.flatMap_left _ fun m hm => ?_
      have hmount : filesOf (underRouter mounts under found) (mountEntry m.1) =
          (found m).map fun f => (m.1 :: f.1, f.2) := by
        rw [filesOf, if_pos (show (mountEntry m.1).isDirectory = true from rfl)]
        exact congrArg (List.map _) (hmountUnder hm)
      rw [hmount]
      exact (hmounts m hm).2.2.map _

end Routers

/-! ## Compositions -/

/-- Every composition shows its files. -/
theorem exists_shows (hsound : ∀ id, (s.memory id).Sound) {store : Store}
    (hstore : store.Composed) : ∃ entries under, Shows s store entries under := by
  induction store, hstore using Store.composed_induction with
  | memory id => exact shows_memory (hsound id)
  | readOnly inner _ _ ih =>
    obtain ⟨entries, under, hshows⟩ := ih
    exact ⟨entries, under, hshows.readOnly⟩
  | router base mounts _ _ ih hnodup hmounts =>
    obtain ⟨entries, under, hbase⟩ := ih
    have hwalks : ∀ m ∈ mounts, ∃ found, Walks s m.2 [] found ∧ found.Perm (sizes s m.2) := by
      intro m hm
      obtain ⟨-, -, mountEntries, mountUnder, hshows⟩ := hmounts m hm
      exact ⟨_, hshows.walks_root, hshows.perm⟩
    choose! found hfound using hwalks
    exact ⟨_, _, shows_router hbase hnodup fun m hm => ⟨(hmounts m hm).1, hfound m hm⟩⟩

/-- The texts of different paths differ. -/
theorem nodup_texts (hsound : ∀ id, (s.memory id).Sound) {store : Store} (hstore : store.Composed) :
    ((files s store).map fun f => "/".intercalate f.1).Nodup := by
  have hpieces : ((files s store).map fun f => "/".intercalate f.1).map Path.pieces =
      (files s store).map (·.1) := by
    rw [List.map_map]
    refine List.map_congr_left fun f hf => ?_
    obtain ⟨hne, hnames⟩ := names_of_mem_files hsound hstore f hf
    exact Path.pieces_intercalate hne hnames
  refine List.Nodup.of_map Path.pieces ?_
  rw [hpieces]
  exact nodup_files hsound hstore

/-- However stores are put together, and whatever has been asked of them before: a walk from the root
succeeds if it may go deep enough, it meets the files of the composition, each once and with the number
of its bytes, and each of them is opened by its path and has its bytes. -/
theorem walk_files {access : Access} (haccess : access.Reachable) {store : Store}
    (hstore : store.Composed) :
    ∃ found bound, (∀ depth, bound ≤ depth → access.storage.walk store depth "" = .ok found) ∧
      found.Perm ((files access.storage store).map fun f => ("/".intercalate f.1, f.2.size)) ∧
      (found.map (·.1)).Nodup ∧
      ∀ f ∈ files access.storage store,
        access.storage.openRead store ("/".intercalate f.1) = .ok (.bytes f.2 0) := by
  have hsound := haccess.sound.memories
  obtain ⟨entries, under, hshows⟩ := exists_shows hsound hstore
  obtain ⟨bound, hbound⟩ := hshows.walks_root.exists_bound
  let found := (entries.flatMap (filesOf under)).map fun f => ("/".intercalate f.1, f.2)
  have hfound : found.Perm
      ((files access.storage store).map fun f => ("/".intercalate f.1, f.2.size)) := by
    have hperm := hshows.perm.map fun f => ("/".intercalate f.1, f.2)
    rw [sizes, List.map_map] at hperm
    exact hperm
  have hnames : (found.map (·.1)).Nodup := by
    refine (hfound.map (·.1)).nodup_iff.mpr ?_
    rw [List.map_map]
    exact nodup_texts hsound hstore
  refine ⟨found, bound, fun depth hdepth => ?_, hfound, hnames, openRead_files hsound hstore⟩
  simpa only [leading, String.empty_append] using hbound depth hdepth

/-- A file of the base that a mount hides is not met, and a file of the mount is met behind its name. -/
theorem walk_files_of_mount :
    let access := (Access.run (.memory 0) (.fresh 2 .empty .epoch)
      [.insert 1 "c" "yz".toUTF8, .insert 0 "m/b" "w".toUTF8, .insert 0 "a/b" "x".toUTF8]).1
    let store : Store := .router (.memory 0) [("m", .readOnly (.memory 1))]
    (access.Reachable ∧ store.Composed) ∧
      ∃ found bound, (∀ depth, bound ≤ depth → access.storage.walk store depth "" = .ok found) ∧
        found.Perm [("a/b", 1), ("m/c", 2)] ∧ (found.map (·.1)).Nodup ∧
        access.storage.openRead store "m/c" = .ok (.bytes "yz".toUTF8 0) := by
  intro access store
  have haccess : access.Reachable := (Access.Reachable.fresh 2 .empty .epoch).run _ _
  have hstore : store.Composed := by
    have hstep : IsStep "m" := ⟨by decide, by decide⟩
    simp [store, Store.Composed, Store.ComposedMounts, hstep]
  have hfiles : files access.storage store =
      [(["a", "b"], "x".toUTF8), (["m", "c"], "yz".toUTF8)] := by rfl
  obtain ⟨found, bound, hwalk, hperm, hnodup, hread⟩ := walk_files haccess hstore
  rw [hfiles] at hperm hread
  exact ⟨⟨haccess, hstore⟩, found, bound, hwalk, hperm, hnodup,
    hread (["m", "c"], "yz".toUTF8) (by simp)⟩

end Sandbox.Storage
