import Sandbox.Proofs.Store.Route

/-!
# Spellings of a path

Empty steps and `.` mean nothing to a memory or a directory: paths with the same names are the same
file to it. A router looks only at the text in front of the first slash, and this text is the first
name of a path that begins with it, but nothing or a dot for `/data/x` and `./data/x`. So two
spellings are the same file behind a router unless their first name is that of a mount and one of them
begins with it while the other does not; then one goes to the mount, and the other to the base.
-/

namespace Sandbox

open MemoryStore (names IsName)

/-- The same error, whatever the path in it. -/
def Store.Error.unnamed : Store.Error → Store.Error
  | .readOnly => .readOnly
  | .invalidPath _ => .invalidPath ""
  | .notFound _ => .notFound ""
  | .disk _ cause => .disk "" cause

namespace Storage

/-- Two paths of a store have the same outcome up to the path in an error, whoever opens a file or
takes one away. -/
structure Alike (s : Storage) (store : Store) (p q : String) : Prop where
  openRead : (s.openRead store p).mapError Store.Error.unnamed =
    (s.openRead store q).mapError Store.Error.unnamed
  openWrite : (s.openWrite store p).mapError Store.Error.unnamed =
    (s.openWrite store q).mapError Store.Error.unnamed
  delete : (s.delete store p).mapError Store.Error.unnamed =
    (s.delete store q).mapError Store.Error.unnamed

variable {s : Storage} {p q : String}

/-! ## Without mounts -/

/-- A memory takes paths with the same names for the same. -/
theorem alike_memory (hnames : names p = names q) (s : Storage) (id : Nat) :
    s.Alike (.memory id) p q where
  openRead := by
    rw [openRead_memory, openRead_memory, hnames]
    split
    · rfl
    · cases (s.memory id).bytes? (names q) <;> rfl
  openWrite := by
    rw [openWrite_memory, openWrite_memory, hnames]
    split
    · rfl
    · cases (s.memory id).bytes? (names q) <;> rfl
  delete := by
    rw [delete_memory, delete_memory, hnames]
    split
    · rfl
    · cases (s.memory id).bytes? (names q) <;> rfl

/-- Paths with the same names lead to the same place on the disk, or both are refused. -/
theorem resolve_alike (hnames : names p = names q) (root : Path) :
    (∃ place, DirectoryStore.resolve root p = .ok place ∧
      DirectoryStore.resolve root q = .ok place) ∨
    (DirectoryStore.resolve root p = .error (.invalidPath p) ∧
      DirectoryStore.resolve root q = .error (.invalidPath q)) := by
  have hsteps : Path.stepsOf (Path.pieces p) = Path.stepsOf (Path.pieces q) := hnames
  simp only [DirectoryStore.resolve, hsteps]
  split
  · exact .inl ⟨_, rfl, rfl⟩
  · exact .inr ⟨rfl, rfl⟩

/-- Whatever is done at a place on the disk, paths with the same names have the same outcome. -/
theorem atPath_alike {α : Type} (hnames : names p = names q) (root : Path)
    (act : String → Except Disk.Refusal α) :
    (DirectoryStore.atPath root p act).mapError Store.Error.unnamed =
      (DirectoryStore.atPath root q act).mapError Store.Error.unnamed := by
  rcases resolve_alike hnames root with ⟨place, hp, hq⟩ | ⟨hp, hq⟩
  · simp only [DirectoryStore.atPath, hp, hq, bind, Except.bind]
    cases act place.toText with
    | ok a => rfl
    | error cause => cases cause <;> rfl
  · simp only [DirectoryStore.atPath, hp, hq, bind, Except.bind]
    rfl

theorem mapError_map {ε ε' α β : Type} (x : Except ε α) (f : α → β) (g : ε → ε') :
    (x.map f).mapError g = (x.mapError g).map f := by
  cases x <;> rfl

/-- A directory takes paths with the same names for the same. -/
theorem alike_directory (hnames : names p = names q) (s : Storage) (root : Path) :
    s.Alike (.directory root) p q where
  openRead := by
    have hopen (path : String) : s.openRead (.directory root) path =
        (DirectoryStore.openRead s.disk root path).map fun number => .node number 0 := by
      simp only [Storage.openRead, Store.locate]
      cases DirectoryStore.openRead s.disk root path <;> rfl
    have hdisk := atPath_alike hnames root fun place => s.disk.find ⟨true, []⟩ place
    rw [hopen, hopen, mapError_map, mapError_map]
    exact congrArg _ hdisk
  openWrite := by
    have hdisk := atPath_alike hnames root (DirectoryStore.writable s.disk)
    rw [openWrite_directory, openWrite_directory, mapError_map, mapError_map]
    exact congrArg _ hdisk
  delete := by
    have hdisk : (DirectoryStore.delete s.disk s.now root p).mapError Store.Error.unnamed =
        (DirectoryStore.delete s.disk s.now root q).mapError Store.Error.unnamed := by
      have hremove := atPath_alike hnames root fun place => s.disk.remove s.now ⟨true, []⟩ place
      rcases resolve_alike hnames root with ⟨place, hp, hq⟩ | ⟨hp, hq⟩
      · simp only [DirectoryStore.delete, hp, hq, bind, Except.bind]
        split
        · rfl
        · exact hremove
      · simp only [DirectoryStore.delete, hp, hq, bind, Except.bind]
        rfl
    rw [delete_directory, delete_directory, mapError_map, mapError_map]
    exact congrArg _ hdisk

/-- Paths have the same outcome if they have it at the end of their routes. -/
theorem Alike.of_routes {store stop : Store} {p' q' : String} (hp : store.Routes p stop p')
    (hq : store.Routes q stop q') (h : s.Alike stop p' q') : s.Alike store p q where
  openRead := by
    rw [openRead_of_routes hp, openRead_of_routes hq]
    exact h.openRead
  openWrite := by
    rw [openWrite_of_routes hp, openWrite_of_routes hq]
    exact h.openWrite
  delete := by
    rw [delete_of_routes hp, delete_of_routes hq]
    exact h.delete

end Storage

/-! ## Behind a router -/

namespace Store

variable {top : Store} {id base : Nat} {mounts : List (String × Store)} {p q path : String}
  {key : List String}

/-- A path addresses the file with this key in a memory. -/
def Addresses (top : Store) (path : String) (id : Nat) (key : List String) : Prop :=
  ∃ left, top.Routes path (.memory id) left ∧ names left = key

/-- Two paths address the same file. -/
def SameFile (top : Store) (p q : String) : Prop :=
  ∃ id key, top.Addresses p id key ∧ top.Addresses q id key

/-- A path addresses one file only. -/
theorem Addresses.unique {id' : Nat} {key' : List String} (h : top.Addresses path id key)
    (h' : top.Addresses path id' key') : id = id' ∧ key = key' := by
  obtain ⟨left, hroute, rfl⟩ := h
  obtain ⟨left', hroute', rfl⟩ := h'
  obtain ⟨hstop, rfl⟩ := hroute.unique hroute'
  exact ⟨Store.memory.inj hstop, rfl⟩

/-- Paths that address the same file have the same outcomes. -/
theorem SameFile.alike (h : top.SameFile p q) (s : Storage) : s.Alike top p q := by
  obtain ⟨id, key, ⟨p', hp, hp'⟩, q', hq, hq'⟩ := h
  exact .of_routes hp hq (Storage.alike_memory (hp'.trans hq'.symm) s id)

/-- A path begins with its first name, and with no slash or dot in front of it. -/
def StartsPlain (path : String) : Prop := (Path.pieces path).head? = (names path).head?

instance (path : String) : Decidable (StartsPlain path) :=
  inferInstanceAs (Decidable ((Path.pieces path).head? = (names path).head?))

/-- The text in front of the first slash is the first piece of a path. -/
theorem splitStep_cases (path : String) :
    (splitStep path = none ∧ Path.pieces path = [path]) ∨
    ∃ step rest, splitStep path = some (step, rest) ∧
      Path.pieces path = step :: Path.pieces rest := by
  by_cases hslash : '/' ∈ path.toList
  · obtain ⟨front, rest, hlist, hfront⟩ := List.eq_append_cons_of_mem hslash
    have hstep : '/' ∉ (String.ofList front).toList := by simpa using hfront
    have hpath : path = String.ofList front ++ "/" ++ String.ofList rest := by
      rw [← String.toList_inj]
      simp [hlist]
    refine .inr ⟨String.ofList front, String.ofList rest, ?_, ?_⟩
    · rw [hpath]
      exact splitStep_append hstep _
    · rw [hpath, Path.pieces_append_slash, Path.pieces_of_not_mem hstep]
      rfl
  · exact .inl ⟨splitStep_of_not_mem hslash, Path.pieces_of_not_mem hslash⟩

/-- A path with two names begins with a text and a slash, and this text is the first name or means
nothing. -/
theorem exists_splitStep (hlength : 2 ≤ (names path).length) :
    ∃ step rest, splitStep path = some (step, rest) ∧
      ((StartsPlain path ∧ names path = step :: names rest) ∨
        (¬StartsPlain path ∧ (step = "" ∨ step = "."))) := by
  rcases splitStep_cases path with ⟨-, hpieces⟩ | ⟨step, rest, hsplit, hpieces⟩
  · have hfew : (names path).length ≤ (Path.pieces path).length := List.length_filter_le ..
    rw [hpieces, List.length_singleton] at hfew
    omega
  · refine ⟨step, rest, hsplit, ?_⟩
    by_cases hempty : step = "" ∨ step = "."
    · refine .inr ⟨fun hplain => ?_, hempty⟩
      rw [StartsPlain, hpieces, List.head?_cons] at hplain
      have hstep : step ∈ names path := List.mem_of_mem_head? hplain.symm
      have hkept := (List.mem_filter.mp hstep).2
      rcases hempty with rfl | rfl <;> simp at hkept
    · obtain ⟨hne, hdot⟩ := not_or.mp hempty
      have hnames : names path = step :: names rest := by
        rw [names, hpieces, Path.stepsOf, List.filter_cons_of_pos (by simp [hne, hdot])]
        rfl
      exact .inl ⟨by rw [StartsPlain, hpieces, hnames, List.head?_cons, List.head?_cons], hnames⟩

/-- A path that begins with the name of a mount addresses a file of the mount. -/
theorem addresses_mount {m : String × Store} (hfind : mounts.find? (·.1 == m.1) = some m)
    (hmount : m.2 = .memory id) (hplain : StartsPlain path) (hname : (names path).head? = some m.1)
    (hlength : 2 ≤ (names path).length) :
    (Store.router (.memory base) mounts).Addresses path id (names path).tail := by
  obtain ⟨step, rest, hsplit, hcases⟩ := exists_splitStep hlength
  obtain ⟨-, hnames⟩ := hcases.resolve_right fun h => h.1 hplain
  rw [hnames, List.head?_cons, Option.some.injEq] at hname
  subst hname
  have hstop : Routes m.2 rest (.memory id) rest := hmount ▸ .memory id rest
  exact ⟨rest, .router (.mount hsplit hfind) hstop, by rw [hnames, List.tail_cons]⟩

/-- A path that does not begin with the name of a mount addresses a file of the base. -/
theorem addresses_base (hmounts : ∀ m ∈ mounts, IsName m.1)
    (hfree : StartsPlain path → ∀ m ∈ mounts, (names path).head? ≠ some m.1)
    (hlength : 2 ≤ (names path).length) :
    (Store.router (.memory base) mounts).Addresses path base (names path) := by
  obtain ⟨step, rest, hsplit, hcases⟩ := exists_splitStep hlength
  have hnone : mounts.find? (·.1 == step) = none := by
    refine find?_free fun m hm heq => ?_
    rcases hcases with ⟨hplain, hnames⟩ | ⟨-, hempty⟩
    · exact hfree hplain m hm (by rw [hnames, List.head?_cons, heq])
    · rcases hempty with hempty | hempty
      · exact (hmounts m hm).ne_empty (heq.trans hempty)
      · exact (hmounts m hm).ne_dot (heq.trans hempty)
  refine ⟨path, .router (.base fun name rest' h => ?_) (.memory base path), rfl⟩
  cases hsplit.symm.trans h
  exact hnone

/-- A file behind fewer names is another one. -/
theorem not_sameFile_of_addresses (hp : top.Addresses p id key.tail) (hq : top.Addresses q base key)
    (hlength : 2 ≤ key.length) : ¬top.SameFile p q := by
  rintro ⟨id', key', hp', hq'⟩
  have hkey : key.tail = key := (hp.unique hp').2.trans (hq.unique hq').2.symm
  have hless := congrArg List.length hkey
  rw [List.length_tail] at hless
  omega

theorem SameFile.symm (h : top.SameFile p q) : top.SameFile q p := by
  obtain ⟨id, key, hp, hq⟩ := h
  exact ⟨id, key, hq, hp⟩

/-- Where a path goes behind a router over memories: with at least two names it is a file of a mount if
it begins with the name of this mount, and else one of the base. -/
theorem router_cases (base : Nat) (hmounts : ∀ m ∈ mounts, IsName m.1 ∧ ∃ id, m.2 = .memory id)
    (hlength : 2 ≤ key.length) :
    ((∀ m ∈ mounts, key.head? ≠ some m.1) ∧
      ∀ path, names path = key → (Store.router (.memory base) mounts).Addresses path base key) ∨
      ∃ m ∈ mounts, key.head? = some m.1 ∧ ∃ id, ∀ path, names path = key →
        if StartsPlain path then (Store.router (.memory base) mounts).Addresses path id key.tail
        else (Store.router (.memory base) mounts).Addresses path base key := by
  have hnamed : ∀ m ∈ mounts, IsName m.1 := fun m hm => (hmounts m hm).1
  by_cases hfree : ∀ m ∈ mounts, key.head? ≠ some m.1
  · refine .inl ⟨hfree, fun path hpath => ?_⟩
    subst hpath
    exact addresses_base hnamed (fun _ => hfree) hlength
  · simp only [not_forall, ne_eq, not_not] at hfree
    obtain ⟨m', hm', hname'⟩ := hfree
    have hsome : (mounts.find? (·.1 == m'.1)).isSome :=
      List.find?_isSome.mpr ⟨m', hm', by simp⟩
    obtain ⟨m, hfind⟩ := Option.isSome_iff_exists.mp hsome
    have hsame : m.1 = m'.1 := by simpa using List.find?_some hfind
    rw [← hsame] at hfind hname'
    have hm := List.mem_of_find?_eq_some hfind
    obtain ⟨id, hmount⟩ := (hmounts m hm).2
    refine .inr ⟨m, hm, hname', id, fun path hpath => ?_⟩
    subst hpath
    split
    case isTrue hplain => exact addresses_mount hfind hmount hplain hname' hlength
    case isFalse hplain => exact addresses_base hnamed (fun h => absurd h hplain) hlength

/-- Behind a router over memories two paths with the same names, at least two, are the same file
exactly if both begin with their first name or neither does, or no mount has this name. They then have
the same outcomes, as they always have without mounts. Otherwise one is a file of the mount and the
other one of the base. -/
theorem router_sameFile_iff (base : Nat) (mounts : List (String × Store))
    (hmounts : ∀ m ∈ mounts, IsName m.1 ∧ ∃ id, m.2 = .memory id) (p q : String)
    (hnames : names p = names q) (hlength : 2 ≤ (names p).length) :
    let top : Store := .router (.memory base) mounts
    (top.SameFile p q ↔
      ∀ m ∈ mounts, (names p).head? = some m.1 → (StartsPlain p ↔ StartsPlain q)) ∧
    (top.SameFile p q → ∀ s : Storage, s.Alike top p q) ∧
    (¬top.SameFile p q → ∃ id,
      (top.Addresses p id (names p).tail ∧ top.Addresses q base (names p)) ∨
        (top.Addresses q id (names p).tail ∧ top.Addresses p base (names p))) ∧
    ∀ s : Storage, (∀ id, s.Alike (.memory id) p q) ∧ ∀ root, s.Alike (.directory root) p q := by
  intro top
  have halone (s : Storage) : (∀ id, s.Alike (.memory id) p q) ∧
      ∀ root, s.Alike (.directory root) p q :=
    ⟨fun id => Storage.alike_memory hnames s id, fun root => Storage.alike_directory hnames s root⟩
  suffices hfile : (top.SameFile p q ∧
      ∀ m ∈ mounts, (names p).head? = some m.1 → (StartsPlain p ↔ StartsPlain q)) ∨
      (∃ id, (top.Addresses p id (names p).tail ∧ top.Addresses q base (names p)) ∨
        (top.Addresses q id (names p).tail ∧ top.Addresses p base (names p))) ∧
      ∃ m ∈ mounts, (names p).head? = some m.1 ∧ ¬(StartsPlain p ↔ StartsPlain q) by
    rcases hfile with ⟨hsame, hplain⟩ | ⟨⟨id, hapart⟩, m, hm, hname, hplain⟩
    · exact ⟨iff_of_true hsame hplain, fun _ => hsame.alike, fun h => absurd hsame h, halone⟩
    · have hnot : ¬top.SameFile p q := by
        rcases hapart with ⟨hp, hq⟩ | ⟨hq, hp⟩
        · exact not_sameFile_of_addresses hp hq hlength
        · exact fun h => not_sameFile_of_addresses hq hp hlength h.symm
      exact ⟨iff_of_false hnot fun h => hplain (h m hm hname), fun h => absurd h hnot,
        fun _ => ⟨id, hapart⟩, halone⟩
  rcases router_cases base hmounts hlength with
    ⟨hfree, hbase⟩ | ⟨m, hm, hname, id, hmount⟩
  · refine .inl ⟨⟨base, names p, hbase p rfl, hbase q hnames.symm⟩, fun m hm hname => ?_⟩
    exact absurd hname (hfree m hm)
  · have hp := hmount p rfl
    have hq := hmount q hnames.symm
    by_cases hplain : StartsPlain p <;> by_cases hplain' : StartsPlain q
    all_goals simp only [hplain, hplain', if_true, if_false] at hp hq
    · exact .inl ⟨⟨id, _, hp, hq⟩, fun _ _ _ => iff_of_true hplain hplain'⟩
    · exact .inr ⟨⟨id, .inl ⟨hp, hq⟩⟩, m, hm, hname, fun h => hplain' (h.mp hplain)⟩
    · exact .inr ⟨⟨id, .inr ⟨hq, hp⟩⟩, m, hm, hname, fun h => hplain (h.mpr hplain')⟩
    · exact .inl ⟨⟨base, _, hp, hq⟩, fun _ _ _ => iff_of_false hplain hplain'⟩

/-- What stands behind the slash after the name of a mount does not matter, as long as the names are
the same. -/
theorem router_sameFile_of_slash :
    let top : Store := .router (.memory 0) [("data", .memory 1)]
    (∀ m ∈ [("data", Store.memory 1)], IsName m.1 ∧ ∃ id, m.2 = .memory id) ∧
      names "data/x" = names "data//./x" ∧ 2 ≤ (names "data/x").length ∧
      top.SameFile "data/x" "data//./x" := by
  intro top
  have hmounts : ∀ m ∈ [("data", Store.memory 1)], IsName m.1 ∧ ∃ id, m.2 = .memory id := by
    intro m hm
    obtain rfl := List.mem_singleton.mp hm
    exact ⟨⟨by decide, by decide, by decide, by decide⟩, 1, rfl⟩
  have hnames : names "data/x" = names "data//./x" := by decide +kernel
  have hlength : 2 ≤ (names "data/x").length := by decide +kernel
  have hiff := (router_sameFile_iff 0 _ hmounts "data/x" "data//./x" hnames hlength).1
  exact ⟨hmounts, hnames, hlength, hiff.mpr fun _ _ _ => by decide +kernel⟩

/-- With a slash in front the file of the base is opened, and without it the file of the mount. -/
theorem not_alike_of_leading_slash :
    let top : Store := .router (.memory 0) [("data", .memory 1)]
    let s : Storage :=
      { memories := #[⟨[(["data", "x"], ⟨"base".toUTF8, .epoch⟩)]⟩,
          ⟨[(["x"], ⟨"mounted".toUTF8, .epoch⟩)]⟩] }
    names "data/x" = names "/data/x" ∧ ".." ∉ names "data/x" ∧ (names "data/x").length = 2 ∧
      s.openRead top "data/x" = .ok (.bytes "mounted".toUTF8 0) ∧
      s.openRead top "/data/x" = .ok (.bytes "base".toUTF8 0) ∧
      ¬s.Alike top "data/x" "/data/x" := by
  intro top s
  have hplain : top.Routes "data/x" (.memory 1) "x" := by
    have hsplit : splitStep "data/x" = some ("data", "x") := by decide +kernel
    exact .router (.mount (m := ("data", .memory 1)) hsplit rfl) (.memory 1 "x")
  have hslash : top.Routes "/data/x" (.memory 0) "/data/x" := by
    refine .router (.base fun name rest h => ?_) (.memory 0 "/data/x")
    have hsplit : splitStep "/data/x" = some ("", "data/x") := by decide +kernel
    cases hsplit.symm.trans h
    rfl
  have hmounted : s.openRead top "data/x" = .ok (.bytes "mounted".toUTF8 0) := by
    rw [Storage.openRead_of_routes hplain, Storage.openRead_memory]
    rfl
  have hbase : s.openRead top "/data/x" = .ok (.bytes "base".toUTF8 0) := by
    rw [Storage.openRead_of_routes hslash, Storage.openRead_memory]
    rfl
  refine ⟨by decide +kernel, by decide +kernel, by decide +kernel, hmounted, hbase, fun h => ?_⟩
  have hread := h.openRead
  rw [hmounted, hbase] at hread
  simp only [Except.mapError, Except.ok.injEq, Storage.Reader.bytes.injEq, and_true] at hread
  exact absurd hread (by decide +kernel)

end Store
end Sandbox
