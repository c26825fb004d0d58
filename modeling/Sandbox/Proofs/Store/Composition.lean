import Sandbox.Proofs.Store.Access
import Sandbox.Proofs.Store.Listing
import Mathlib.Data.List.TakeDrop
import Mathlib.Data.List.TakeWhile

/-!
# Compositions of stores

A store that is put together from memories, read-only stores and routers has the files of its parts.
`Storage.files` lists them by the names on their paths: a router has the files of its base whose first
name is no mount, and the files of each mount behind the name of the mount. No path is there twice,
and each file is opened by its path and has its bytes.
-/

namespace Sandbox

namespace Store

/-- A name under which a store can be mounted. -/
structure IsStep (name : String) : Prop where
  ne_empty : name ≠ ""
  no_slash : '/' ∉ name.toList

mutual
/-- The store is put together from memories, read-only stores and routers, and the names of mounts
are not empty and have no slash; no router has a name twice. -/
def Composed : Store → Prop
  | .memory _ => True
  | .directory _ => False
  | .readOnly inner => Composed inner
  | .router base mounts => Composed base ∧ (mounts.map (·.1)).Nodup ∧ ComposedMounts mounts

/-- Every mount has a fit name and is put together in this way. -/
def ComposedMounts : List (String × Store) → Prop
  | [] => True
  | (name, store) :: rest => IsStep name ∧ Composed store ∧ ComposedMounts rest
end

theorem of_mem_composedMounts {mounts : List (String × Store)} (hmounts : ComposedMounts mounts) :
    ∀ m ∈ mounts, IsStep m.1 ∧ m.2.Composed := by
  induction mounts with
  | nil => simp
  | cons m rest ih =>
    rw [ComposedMounts] at hmounts
    exact List.forall_mem_cons.mpr ⟨⟨hmounts.1, hmounts.2.1⟩, ih hmounts.2.2⟩

/-- What holds of memories and passes on to read-only stores and routers holds of all compositions. -/
theorem composed_induction {motive : ∀ store : Store, store.Composed → Prop}
    (memory : ∀ id hstore, motive (.memory id) hstore)
    (readOnly : ∀ inner hinner hstore, motive inner hinner → motive (.readOnly inner) hstore)
    (router : ∀ base mounts hbase hstore, motive base hbase → (mounts.map (·.1)).Nodup →
      (∀ m ∈ mounts, IsStep m.1 ∧ ∃ hmount, motive m.2 hmount) → motive (.router base mounts) hstore) :
    ∀ (store : Store) (hstore : store.Composed), motive store hstore
  | .memory id, hstore => memory id hstore
  | .directory _, hstore => by simp [Composed] at hstore
  | .readOnly inner, hstore => by
    have hinner : inner.Composed := by simpa [Composed] using hstore
    exact readOnly inner hinner hstore (composed_induction memory readOnly router inner hinner)
  | .router base mounts, hstore => by
    have hparts := hstore
    rw [Composed] at hparts
    obtain ⟨hbase, hnodup, hmounts⟩ := hparts
    refine router base mounts hbase hstore (composed_induction memory readOnly router base hbase)
      hnodup fun m hm => ?_
    obtain ⟨hstep, hmount⟩ := of_mem_composedMounts hmounts m hm
    exact ⟨hstep, hmount, composed_induction memory readOnly router m.2 hmount⟩
termination_by store => sizeOf store
decreasing_by
  · simp
  · simp
    omega
  · have hless := List.sizeOf_lt_of_mem hm
    obtain ⟨name, store⟩ := m
    simp at hless ⊢
    omega

/-! ## Ways through routers -/

/-- A path is split at its first slash. -/
theorem splitStep_append {step : String} (hstep : '/' ∉ step.toList) (rest : String) :
    splitStep (step ++ "/" ++ rest) = some (step, rest) := by
  have hkept : ∀ c ∈ step.toList, decide (c ≠ '/') = true := fun c hc =>
    decide_eq_true fun heq => hstep (heq ▸ hc)
  have hlist : (step ++ "/" ++ rest).toList = step.toList ++ '/' :: rest.toList := by simp
  rw [splitStep, hlist, List.span_eq_takeWhile_dropWhile, List.takeWhile_append_of_pos hkept,
    List.dropWhile_append_of_pos hkept]
  simp

/-- A path without a slash is not split. -/
theorem splitStep_of_not_mem {step : String} (hstep : '/' ∉ step.toList) : splitStep step = none := by
  have hkept : ∀ c ∈ step.toList, decide (c ≠ '/') = true := fun c hc =>
    decide_eq_true fun heq => hstep (heq ▸ hc)
  have hrest : step.toList.dropWhile (fun c => decide (c ≠ '/')) = [] :=
    List.dropWhile_eq_nil_iff.mpr hkept
  rw [splitStep, List.span_eq_takeWhile_dropWhile, hrest]

/-- A mount is found by its name. -/
theorem find?_mount {mounts : List (String × Store)} (hnodup : (mounts.map (·.1)).Nodup)
    {m : String × Store} (hm : m ∈ mounts) : mounts.find? (·.1 == m.1) = some m := by
  induction mounts with
  | nil => exact absurd hm List.not_mem_nil
  | cons first more ih =>
    obtain ⟨hnew, hnodup⟩ := List.nodup_cons.mp hnodup
    rcases List.mem_cons.mp hm with rfl | hm
    · exact List.find?_cons_of_pos (by simp)
    · have hne : first.1 ≠ m.1 := fun heq => hnew (List.mem_map.mpr ⟨m, hm, heq.symm⟩)
      rw [List.find?_cons_of_neg (by simpa using hne), ih hnodup hm]

/-- No mount is found by a name that none has. -/
theorem find?_free {mounts : List (String × Store)} {name : String}
    (hfree : ∀ m ∈ mounts, m.1 ≠ name) : mounts.find? (·.1 == name) = none :=
  List.find?_eq_none.mpr fun m hm => by simpa using hfree m hm

/-- The mount of a name takes the paths behind it. -/
theorem locateMount_eq (mounts : List (String × Store)) (name rest : String) :
    locateMount mounts name rest =
      (mounts.find? (·.1 == name)).map fun m => locate m.2 rest := by
  induction mounts with
  | nil => rfl
  | cons first more ih =>
    rw [locateMount, ih]
    by_cases heq : first.1 = name <;> simp [heq]

end Store

namespace Storage

open Sandbox.Path (leading)
open Store (IsStep Composed)

variable {s : Storage}

/-- The mount of a name lists the directories behind it. -/
theorem listMount_eq (mounts : List (String × Store)) (name rest : String) :
    listMount s mounts name rest =
      (mounts.find? (·.1 == name)).map fun m => s.list m.2 rest := by
  induction mounts with
  | nil => rfl
  | cons first more ih =>
    rw [listMount, ih]
    by_cases heq : first.1 = name <;> simp [heq]

/-- A directory behind a name is not the top. -/
theorem isTop_leading_cons {name : String} (hname : IsStep name) (rest : List String) :
    Store.isTop (leading (name :: rest)) = false := by
  obtain ⟨c, cs, hlist⟩ := List.exists_cons_of_ne_nil (mt String.toList_eq_nil_iff.mp hname.ne_empty)
  have hc : c ≠ '/' := fun heq => hname.no_slash (by simp [hlist, heq])
  simp only [Store.isTop, Bool.or_eq_false_iff, beq_eq_false_iff_ne, ne_eq, ← String.toList_inj,
    leading, String.toList_append, hlist]
  exact ⟨by simp, by simp [hc]⟩

/-- Below its top a router lists what the base or a mount lists. -/
theorem list_router_leading {base : Store} {mounts : List (String × Store)} {name : String}
    (hname : IsStep name) (rest : List String) :
    s.list (.router base mounts) (leading (name :: rest)) =
      (listMount s mounts name (leading rest)).getD (s.list base (leading (name :: rest))) := by
  rw [list, isTop_leading_cons hname, if_neg (by simp), leading,
    Store.splitStep_append hname.no_slash]

/-! ## The files of a composition -/

mutual
/-- The files of a store, by the names on their paths. -/
def files (s : Storage) : Store → List (List String × ByteArray)
  | .memory id => (s.memory id).files.map fun e => (e.1, e.2.data)
  | .directory _ => []
  | .readOnly inner => files s inner
  | .router base mounts =>
    (files s base).filter (fun f => !mounts.any (·.1 == f.1.headD "")) ++ mountFiles s mounts

/-- The files of all mounts, each behind the name of its mount. -/
def mountFiles (s : Storage) : List (String × Store) → List (List String × ByteArray)
  | [] => []
  | (name, store) :: rest => (files s store).map (fun f => (name :: f.1, f.2)) ++ mountFiles s rest
end

theorem mountFiles_eq (mounts : List (String × Store)) :
    mountFiles s mounts = mounts.flatMap fun m => (files s m.2).map fun f => (m.1 :: f.1, f.2) := by
  induction mounts with
  | nil => rfl
  | cons m rest ih => rw [mountFiles, ih, List.flatMap_cons]

/-- The path of a file has names, and no name has a slash. -/
theorem names_of_mem_files (hsound : ∀ id, (s.memory id).Sound) {store : Store}
    (hstore : store.Composed) :
    ∀ f ∈ files s store, f.1 ≠ [] ∧ ∀ name ∈ f.1, '/' ∉ name.toList := by
  induction store, hstore using Store.composed_induction with
  | memory id =>
    intro f hf
    rw [files] at hf
    obtain ⟨e, he, rfl⟩ := List.mem_map.mp hf
    have hcanonical := (hsound id).canonical e he
    exact ⟨hcanonical.ne_nil, fun name hname => (hcanonical.isName name hname).no_slash⟩
  | readOnly inner _ _ ih => simpa only [files] using ih
  | router base mounts _ _ ih hnodup hmounts =>
    intro f hf
    rw [files, mountFiles_eq] at hf
    rcases List.mem_append.mp hf with hf | hf
    · exact ih f (List.mem_of_mem_filter hf)
    · obtain ⟨m, hm, hf⟩ := List.mem_flatMap.mp hf
      obtain ⟨g, hg, rfl⟩ := List.mem_map.mp hf
      obtain ⟨hstep, -, hinner⟩ := hmounts m hm
      refine ⟨List.cons_ne_nil _ _, List.forall_mem_cons.mpr ⟨hstep.no_slash, (hinner g hg).2⟩⟩

/-- No two files have the same path. -/
theorem nodup_files (hsound : ∀ id, (s.memory id).Sound) {store : Store} (hstore : store.Composed) :
    ((files s store).map (·.1)).Nodup := by
  induction store, hstore using Store.composed_induction with
  | memory id =>
    rw [files, List.map_map]
    exact (hsound id).nodup
  | readOnly inner _ _ ih => simpa only [files] using ih
  | router base mounts _ _ ih hnodup hmounts =>
    rw [files, mountFiles_eq, List.map_append, List.map_flatMap]
    refine List.Nodup.append (ih.sublist (List.filter_sublist.map _)) ?_ ?_
    · refine List.nodup_flatMap.mpr ⟨fun m hm => ?_, ?_⟩
      · obtain ⟨-, -, hinner⟩ := hmounts m hm
        have hinjective : Function.Injective fun names : List String => m.1 :: names :=
          fun _ _ heq => (List.cons.inj heq).2
        have hcons := hinner.map hinjective
        rw [List.map_map] at hcons ⊢
        exact hcons
      · refine (List.pairwise_map.mp hnodup).imp fun {m m'} hne => ?_
        intro path hpath hpath'
        simp only [List.map_map, List.mem_map, Function.comp_apply] at hpath hpath'
        obtain ⟨f, -, rfl⟩ := hpath
        obtain ⟨f', -, heq⟩ := hpath'
        exact hne (List.cons.inj heq).1.symm
    · intro path hbase hmount
      obtain ⟨f, hf, rfl⟩ := List.mem_map.mp hbase
      obtain ⟨m, hm, hpath⟩ := List.mem_flatMap.mp hmount
      simp only [List.map_map, List.mem_map, Function.comp_apply] at hpath
      obtain ⟨g, -, heq⟩ := hpath
      have hfree := (List.mem_filter.mp hf).2
      simp only [← heq, List.headD_cons, Bool.not_eq_true', List.any_eq_false, beq_iff_eq] at hfree
      exact hfree m hm rfl

/-- Opening for reading depends on where the path ends up. -/
theorem openRead_congr {store store' : Store} {path path' : String}
    (hbackend : (store.locate path).backend = (store'.locate path').backend)
    (hpath : (store.locate path).path = (store'.locate path').path) :
    s.openRead store path = s.openRead store' path' := by
  simp only [openRead, hbackend, hpath]

/-- A file of a memory is opened by the text of its key. -/
theorem openRead_memory_intercalate {id : Nat} (hsound : (s.memory id).Sound)
    {e : List String × MemoryFile} (he : e ∈ (s.memory id).files) :
    s.openRead (.memory id) ("/".intercalate e.1) = .ok (.bytes e.2.data 0) := by
  have hcanonical := hsound.canonical e he
  have hbytes : (s.memory id).bytes? e.1 = some e.2.data := by
    rw [MemoryStore.bytes?, hsound.mem_files_iff.mp he, Option.map_some]
  rw [openRead_memory, hcanonical.names_intercalate, if_neg hcanonical.dots_not_mem, hbytes]

/-- A router leaves a path to its base if the first name is no mount. -/
theorem openRead_router_base {base : Store} {mounts : List (String × Store)} {names : List String}
    {name : String} (hname : '/' ∉ name.toList) (hfree : ∀ m ∈ mounts, m.1 ≠ name) :
    s.openRead (.router base mounts) ("/".intercalate (name :: names)) =
      s.openRead base ("/".intercalate (name :: names)) := by
  have hlocate : (Store.router base mounts).locate ("/".intercalate (name :: names)) =
      base.locate ("/".intercalate (name :: names)) := by
    cases names with
    | nil => rw [String.intercalate_singleton, Store.locate, Store.splitStep_of_not_mem hname]
    | cons next more =>
      rw [String.intercalate_cons_of_ne_nil (List.cons_ne_nil next more), Store.locate,
        Store.splitStep_append hname]
      simp only [Store.locateMount_eq, Store.find?_free hfree, Option.map_none, Option.getD_none]
  exact openRead_congr (by rw [hlocate]) (by rw [hlocate])

/-- A router sends a path behind the name of a mount to this mount. -/
theorem openRead_router_mount {base : Store} {mounts : List (String × Store)}
    (hnodup : (mounts.map (·.1)).Nodup) {m : String × Store} (hm : m ∈ mounts)
    (hname : '/' ∉ m.1.toList) {names : List String} (hnames : names ≠ []) :
    s.openRead (.router base mounts) ("/".intercalate (m.1 :: names)) =
      s.openRead m.2 ("/".intercalate names) := by
  have hlocate : (Store.router base mounts).locate ("/".intercalate (m.1 :: names)) =
      m.2.locate ("/".intercalate names) := by
    rw [String.intercalate_cons_of_ne_nil hnames, Store.locate, Store.splitStep_append hname]
    simp only [Store.locateMount_eq, Store.find?_mount hnodup hm, Option.map_some, Option.getD_some]
  exact openRead_congr (by rw [hlocate]) (by rw [hlocate])

/-- Every file of a composition is opened by its path and has its bytes. -/
theorem openRead_files (hsound : ∀ id, (s.memory id).Sound) {store : Store}
    (hstore : store.Composed) :
    ∀ f ∈ files s store, s.openRead store ("/".intercalate f.1) = .ok (.bytes f.2 0) := by
  induction store, hstore using Store.composed_induction with
  | memory id =>
    intro f hf
    rw [files] at hf
    obtain ⟨e, he, rfl⟩ := List.mem_map.mp hf
    exact openRead_memory_intercalate (hsound id) he
  | readOnly inner _ _ ih =>
    intro f hf
    have hread : s.openRead (.readOnly inner) ("/".intercalate f.1) =
        s.openRead inner ("/".intercalate f.1) := by
      refine openRead_congr ?_ ?_ <;> rw [Store.locate]
    rw [hread]
    exact ih f (by simpa only [files] using hf)
  | router base mounts hbase _ ih hnodup hmounts =>
    intro f hf
    rw [files, mountFiles_eq] at hf
    rcases List.mem_append.mp hf with hf | hf
    · obtain ⟨hf, hfree⟩ := List.mem_filter.mp hf
      obtain ⟨hne, hnames⟩ := names_of_mem_files hsound hbase f hf
      have hread := ih f hf
      obtain ⟨name, more, hpath⟩ := List.exists_cons_of_ne_nil hne
      simp only [hpath, List.headD_cons, Bool.not_eq_true', List.any_eq_false, beq_iff_eq] at hfree
      rw [hpath] at hread hnames ⊢
      rw [openRead_router_base (hnames name (List.mem_cons_self ..)) hfree, hread]
    · obtain ⟨m, hm, hf⟩ := List.mem_flatMap.mp hf
      obtain ⟨g, hg, rfl⟩ := List.mem_map.mp hf
      obtain ⟨hstep, hmount, hinner⟩ := hmounts m hm
      have hne := (names_of_mem_files hsound hmount g hg).1
      rw [openRead_router_mount hnodup hm hstep.no_slash hne]
      exact hinner g hg

end Storage
end Sandbox
