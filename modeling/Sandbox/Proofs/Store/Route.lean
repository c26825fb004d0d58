import Sandbox.Proofs.Store.Composition

/-!
# Routes through stores

A path goes from router to router until it comes to a store of another kind: a memory, a directory, or
a store that may only be read. `Store.Routes` is this way, taken one router at a time. Every path has
exactly one, and whoever opens a file or takes it away does so at its end.
-/

namespace Sandbox

namespace Store

/-- The first router on the way of a path hands it to this store, as this path. -/
inductive HandsOn : Store → String → Store → String → Prop
  /-- The text in front of the first slash is the name of a mount, which sees the rest. -/
  | mount {base : Store} {mounts : List (String × Store)} {path rest : String} {m : String × Store}
      (hsplit : splitStep path = some (m.1, rest)) (hmount : mounts.find? (·.1 == m.1) = some m) :
      HandsOn (.router base mounts) path m.2 rest
  /-- There is no slash, or no mount of this name. -/
  | base {base : Store} {mounts : List (String × Store)} {path : String}
      (hfree : ∀ name rest, splitStep path = some (name, rest) →
        mounts.find? (·.1 == name) = none) :
      HandsOn (.router base mounts) path base path

/-- A path of a store comes to this store, which is no router, as this path. -/
inductive Routes : Store → String → Store → String → Prop
  | memory (id : Nat) (path : String) : Routes (.memory id) path (.memory id) path
  | directory (root : Path) (path : String) : Routes (.directory root) path (.directory root) path
  | readOnly (inner : Store) (path : String) : Routes (.readOnly inner) path (.readOnly inner) path
  | router {store next stop : Store} {path rest left : String} (hstep : HandsOn store path next rest)
      (hrest : Routes next rest stop left) : Routes store path stop left

/-- A memory stands in the store in a place that is not below a read-only store. -/
inductive Exposes : Store → Nat → Prop
  | memory (id : Nat) : Exposes (.memory id) id
  | base {base : Store} {mounts : List (String × Store)} {id : Nat} (h : Exposes base id) :
      Exposes (.router base mounts) id
  | mount {base : Store} {mounts : List (String × Store)} {id : Nat} {m : String × Store}
      (hm : m ∈ mounts) (h : Exposes m.2 id) : Exposes (.router base mounts) id

variable {store next other stop : Store} {path rest left : String} {id : Nat}

/-! ## One router -/

/-- A router hands every path on. -/
theorem exists_handsOn (base : Store) (mounts : List (String × Store)) (path : String) :
    ∃ next rest, HandsOn (.router base mounts) path next rest := by
  cases hsplit : splitStep path with
  | none => exact ⟨base, path, .base (by simp [hsplit])⟩
  | some parts =>
    obtain ⟨name, rest⟩ := parts
    cases hfind : mounts.find? (·.1 == name) with
    | none =>
      refine ⟨base, path, .base fun name' rest' h => ?_⟩
      cases hsplit.symm.trans h
      exact hfind
    | some m =>
      have hname : m.1 = name := by simpa using List.find?_some hfind
      subst hname
      exact ⟨m.2, rest, .mount hsplit hfind⟩

/-- A router hands a path on to one store only. -/
theorem HandsOn.unique {rest' : String} (h : HandsOn store path next rest)
    (h' : HandsOn store path other rest') : next = other ∧ rest = rest' := by
  cases h with
  | mount hsplit hmount =>
    cases h' with
    | mount hsplit' hmount' =>
      obtain ⟨hname, rfl⟩ := Prod.mk.inj (Option.some.inj (hsplit.symm.trans hsplit'))
      rw [hname] at hmount
      cases hmount.symm.trans hmount'
      exact ⟨rfl, rfl⟩
    | base hfree =>
      rw [hfree _ _ hsplit] at hmount
      cases hmount
  | base hfree =>
    cases h' with
    | mount hsplit' hmount' =>
      rw [hfree _ _ hsplit'] at hmount'
      cases hmount'
    | base => exact ⟨rfl, rfl⟩

/-- The way that a path takes goes through the store to which a router hands it. -/
theorem HandsOn.locate_eq (h : HandsOn store path next rest) :
    store.locate path = next.locate rest := by
  cases h with
  | mount hsplit hmount =>
    simp only [locate, hsplit, locateMount_eq, hmount, Option.map_some, Option.getD_some]
  | base hfree =>
    rw [locate]
    split
    · rename_i name rest hsplit
      rw [locateMount_eq, hfree name rest hsplit]
      rfl
    · rfl

/-- What is behind the first slash of a path is the end of this path. -/
theorem suffix_of_splitStep {step : String} (hsplit : splitStep path = some (step, rest)) :
    rest.toList <:+ path.toList := by
  rw [splitStep, List.span_eq_takeWhile_dropWhile] at hsplit
  cases hdrop : path.toList.dropWhile (· ≠ '/') with
  | nil =>
    rw [hdrop] at hsplit
    cases hsplit
  | cons slash left =>
    rw [hdrop] at hsplit
    obtain ⟨-, rfl⟩ := Prod.mk.inj (Option.some.inj hsplit)
    rw [String.toList_ofList]
    exact (List.suffix_cons slash left).trans (hdrop ▸ List.dropWhile_suffix _)

/-- A router hands on the end of a path. -/
theorem HandsOn.suffix (h : HandsOn store path next rest) : rest.toList <:+ path.toList := by
  cases h with
  | mount hsplit _ => exact suffix_of_splitStep hsplit
  | base _ => exact List.suffix_rfl

/-- A router hands every path on to a part of it. -/
theorem HandsOn.sizeOf_lt (h : HandsOn store path next rest) : sizeOf next < sizeOf store := by
  cases h with
  | @mount base mounts _ _ m _ hmount =>
    have hless := List.sizeOf_lt_of_mem (List.mem_of_find?_eq_some hmount)
    obtain ⟨name, store⟩ := m
    simp at hless ⊢
    omega
  | base _ =>
    simp
    omega

/-! ## Whole routes -/

/-- Every path of every store comes to a store that is no router. -/
theorem exists_routes : ∀ (store : Store) (path : String), ∃ stop left, store.Routes path stop left
  | .memory id, path => ⟨_, _, .memory id path⟩
  | .directory root, path => ⟨_, _, .directory root path⟩
  | .readOnly inner, path => ⟨_, _, .readOnly inner path⟩
  | .router base mounts, path => by
    obtain ⟨next, rest, hstep⟩ := exists_handsOn base mounts path
    have hless : sizeOf next < sizeOf (Store.router base mounts) := hstep.sizeOf_lt
    obtain ⟨stop, left, hrest⟩ := exists_routes next rest
    exact ⟨stop, left, .router hstep hrest⟩
termination_by store => sizeOf store
decreasing_by simpa using hless

/-- Where a path ends up, the end of it is left. -/
theorem suffix_locate : ∀ (store : Store) (path : String),
    (store.locate path).path.toList <:+ path.toList
  | .memory _, _ => List.suffix_rfl
  | .directory _, _ => List.suffix_rfl
  | .readOnly inner, path => suffix_locate inner path
  | .router base mounts, path => by
    obtain ⟨next, rest, hstep⟩ := exists_handsOn base mounts path
    have hless : sizeOf next < sizeOf (Store.router base mounts) := hstep.sizeOf_lt
    rw [hstep.locate_eq]
    exact (suffix_locate next rest).trans hstep.suffix
termination_by store => sizeOf store
decreasing_by
  · simp
  · exact hless

/-- A path comes to one store only. -/
theorem Routes.unique {left' : String} (h : store.Routes path stop left)
    (h' : store.Routes path other left') : stop = other ∧ left = left' := by
  induction h with
  | router hstep _ ih =>
    cases h' with
    | router hstep' hrest' =>
      obtain ⟨rfl, rfl⟩ := hstep.unique hstep'
      exact ih hrest'
    | _ => cases hstep
  | _ =>
    cases h' with
    | router hstep' => cases hstep'
    | _ => exact ⟨rfl, rfl⟩

/-- A path ends up where it ends up from the end of its route. -/
theorem Routes.locate_eq (h : store.Routes path stop left) : store.locate path = stop.locate left := by
  induction h with
  | router hstep _ ih => rw [hstep.locate_eq, ih]
  | _ => rfl

/-- At the end of a route there is no router. -/
theorem Routes.stop_cases (h : store.Routes path stop left) :
    (∃ id, stop = .memory id) ∨ (∃ root, stop = .directory root) ∨ ∃ inner, stop = .readOnly inner := by
  induction h with
  | memory id => exact .inl ⟨id, rfl⟩
  | directory root => exact .inr (.inl ⟨root, rfl⟩)
  | readOnly inner => exact .inr (.inr ⟨inner, rfl⟩)
  | router _ _ ih => exact ih

/-- A memory to which a path comes stands in a place that is not below a read-only store. -/
theorem Routes.exposes (h : store.Routes path (.memory id) left) : store.Exposes id := by
  generalize hstop : Store.memory id = stop at h
  induction h with
  | memory => cases hstop; exact .memory id
  | directory => cases hstop
  | readOnly => cases hstop
  | router hstep _ ih =>
    cases hstep with
    | mount _ hmount => exact .mount (List.mem_of_find?_eq_some hmount) (ih hstop)
    | base => exact .base (ih hstop)

end Store

/-! ## Requests at the end of a route -/

namespace Storage

variable {s : Storage} {store stop : Store} {path left : String}

theorem openRead_of_routes (h : store.Routes path stop left) :
    s.openRead store path = s.openRead stop left := by
  rw [openRead, h.locate_eq, openRead]

theorem openWrite_of_routes (h : store.Routes path stop left) :
    s.openWrite store path = s.openWrite stop left := by
  rw [openWrite, h.locate_eq, openWrite]

theorem delete_of_routes (h : store.Routes path stop left) :
    s.delete store path = s.delete stop left := by
  rw [delete, h.locate_eq, delete]

/-- A read-only store refuses to open a file for writing. -/
theorem openWrite_readOnly (s : Storage) (inner : Store) (path : String) :
    s.openWrite (.readOnly inner) path = .error .readOnly := by
  simp only [openWrite, Store.locate, if_true]

/-- A read-only store refuses to take a file away. -/
theorem delete_readOnly (s : Storage) (inner : Store) (path : String) :
    s.delete (.readOnly inner) path = .error .readOnly := by
  simp only [delete, Store.locate, if_true]

/-- The directory opens what the path leads to for writing. -/
theorem openWrite_directory (s : Storage) (root : Path) (path : String) :
    s.openWrite (.directory root) path =
      (DirectoryStore.openWrite s.disk root path).map fun number => .node number 0 := by
  simp only [openWrite, Store.locate, Bool.false_eq_true, if_false]
  cases DirectoryStore.openWrite s.disk root path <;> rfl

/-- The directory takes away what the path leads to. -/
theorem delete_directory (s : Storage) (root : Path) (path : String) :
    s.delete (.directory root) path =
      (DirectoryStore.delete s.disk s.now root path).map fun disk => { s with disk } := by
  simp only [delete, Store.locate, Bool.false_eq_true, if_false]
  cases DirectoryStore.delete s.disk s.now root path <;> rfl

end Storage
end Sandbox
