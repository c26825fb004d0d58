import Sandbox.Proofs.Store.Access
import Sandbox.Proofs.Store.Clean
import Sandbox.Proofs.Store.Confinement

/-!
# Memories on the disk

A memory takes the names of a path for a key, and a directory cleans the path behind its root. Where
the path has a key, both mean the same: the directory is led to the key behind its root, whatever the
spelling. So the files of a memory that have been put on the disk below the root, each at the place of
its key, are read by the paths by which the memory has them.
-/

namespace Sandbox

open Path (IsPlace StaysBelow)

/-- The files of a memory stand on the disk below a root, each at the place of its key. -/
def Storage.Unpacked (s : Storage) (id : Nat) (root : Path) : Prop :=
  ∀ key file, (s.memory id).get? key = some file →
    ∃ number,
      s.disk.find ⟨true, []⟩ (Path.toText ⟨root.absolute, root.steps ++ key⟩) = .ok number ∧
      s.disk.data? number = some file.data

namespace DirectoryStore

variable {root : Path} {path : String} {key : List String}

/-- A path that never leads above its start resolves to what it leads to, behind the root. -/
theorem resolve_of_staysBelow (hroot : root.clean = root)
    (h : StaysBelow (Path.ofText path).steps) :
    resolve root path =
      .ok ⟨root.absolute, root.steps ++ Path.walk [] (Path.ofText path).steps⟩ := by
  rw [resolve_of_clean (Path.clean_join_of_staysBelow hroot h)]
  exact if_pos (by simp [Path.isWithin])

/-- A path with a key resolves to this key behind the root. -/
theorem resolve_of_key (hroot : root.clean = root) (hkey : MemoryStore.key path = .ok key) :
    resolve root path = .ok ⟨root.absolute, root.steps ++ key⟩ := by
  rw [MemoryStore.key_eq] at hkey
  split at hkey
  case isTrue => cases hkey
  case isFalse hdots =>
    obtain rfl := Except.ok.inj hkey
    have hnames : ".." ∉ (Path.ofText path).steps := hdots
    rw [resolve_of_staysBelow hroot (Path.staysBelow_of_names hnames), Path.walk_of_names hnames]
    rfl

/-- The only paths without a key are refused as such. -/
theorem key_eq_error (h : ∀ key, MemoryStore.key path ≠ .ok key) :
    MemoryStore.key path = .error (.invalidPath path) := by
  rw [MemoryStore.key_eq] at h ⊢
  split
  case isTrue => rfl
  case isFalse hdots => exact absurd (if_neg hdots) (h _)

/-- What is read from a memory is read from the directory where its files stand. -/
theorem exists_openRead_of_unpacked {s : Storage} {id : Nat} (hroot : root.clean = root)
    (hdisk : s.Unpacked id root) {reader : Storage.Reader}
    (hread : s.openRead (.memory id) path = .ok reader) :
    ∃ reader', s.openRead (.directory root) path = .ok reader' ∧
      s.readAll reader' = s.readAll reader := by
  rw [Storage.openRead_memory] at hread
  split at hread
  case isTrue => cases hread
  case isFalse hdots =>
    split at hread
    case h_2 => cases hread
    case h_1 data hdata =>
      obtain rfl := Except.ok.inj hread
      obtain ⟨file, hget, rfl⟩ := Option.map_eq_some_iff.mp hdata
      obtain ⟨number, hfind, hfile⟩ := hdisk _ file hget
      have hplace := resolve_of_key hroot ((MemoryStore.key_eq path).trans (if_neg hdots))
      refine ⟨.node number 0, ?_, ?_⟩
      · simp only [Storage.openRead, Store.locate, DirectoryStore.openRead, atPath, hplace, bind,
          Except.bind, hfind, pure, Except.pure]
      · simp only [Storage.readAll, Storage.readerData, hfile]

/-- A memory and a directory read paths alike. Where a path has a key in memories, the directory is led
to its root and then to the names of this key; what the directory refuses has no key. So each path that
opens a file of a memory opens a file with the same bytes once the memory stands on the disk. -/
theorem resolve_agrees_with_key (cwd text path : String) :
    let root := DirectoryStore.root (.ofText cwd) text
    (text.startsWith '/' = true → root = (Path.ofText text).clean ∧ root.IsPlace) ∧
    (∀ key, MemoryStore.key path = .ok key →
      resolve root path = .ok ⟨root.absolute, root.steps ++ key⟩) ∧
    (resolve root path = .error (.invalidPath path) →
      MemoryStore.key path = .error (.invalidPath path)) ∧
    ∀ (s : Storage) (id : Nat), s.Unpacked id root → ∀ reader,
      s.openRead (.memory id) path = .ok reader →
      ∃ reader', s.openRead (.directory root) path = .ok reader' ∧
        s.readAll reader' = s.readAll reader := by
  intro root
  have hroot : root.clean = root := Path.clean_clean _
  refine ⟨fun habsolute => ⟨?_, isPlace_root (.inl habsolute)⟩, fun key => resolve_of_key hroot,
    fun hrefused => key_eq_error fun key hkey => ?_,
    fun s id hdisk reader => exists_openRead_of_unpacked hroot hdisk⟩
  · exact congrArg Path.clean (if_pos habsolute)
  · have hplace := resolve_of_key hroot hkey
    rw [hrefused] at hplace
    cases hplace

/-- A memory with one file, and a disk where it stands below a root. -/
def unpacked : Storage where
  memories := #[⟨[(["lib", "x.lua"], ⟨"return 1".toUTF8, .epoch⟩)]⟩]
  disk := Disk.empty.put .epoch ["srv".toUTF8, "lib".toUTF8, "x.lua".toUTF8]
    ⟨.file "return 1".toUTF8, .epoch⟩

/-- A spelling with slashes and dots is read from the memory and from the disk. -/
theorem resolve_agrees_with_key_of_spelling :
    let root := DirectoryStore.root (.ofText "/") "/srv/./x/.."
    "/srv/./x/..".startsWith '/' = true ∧ root = ⟨true, ["srv"]⟩ ∧
      MemoryStore.key "/.//lib/./x.lua" = .ok ["lib", "x.lua"] ∧
      resolve root "/.//lib/./x.lua" = .ok ⟨true, ["srv", "lib", "x.lua"]⟩ ∧
      resolve root "lib/../../x" = .error (.invalidPath "lib/../../x") ∧
      MemoryStore.key "lib/../../x" = .error (.invalidPath "lib/../../x") ∧
      unpacked.Unpacked 0 root ∧
      unpacked.openRead (.memory 0) "/.//lib/./x.lua" = .ok (.bytes "return 1".toUTF8 0) ∧
      ∃ reader, unpacked.openRead (.directory root) "/.//lib/./x.lua" = .ok reader ∧
        unpacked.readAll reader = .ok "return 1".toUTF8 := by
  intro root
  have habsolute : "/srv/./x/..".startsWith '/' = true := by decide
  have hroot : root = ⟨true, ["srv"]⟩ := by decide
  have hkey : MemoryStore.key "/.//lib/./x.lua" = .ok ["lib", "x.lua"] := by decide
  have hrefused : resolve root "lib/../../x" = .error (.invalidPath "lib/../../x") := by decide
  have hdisk : unpacked.Unpacked 0 root := by
    intro key file hget
    obtain ⟨front, back, hfiles, -⟩ := List.lookup_eq_some_iff.mp hget
    have hmem : (key, file) ∈ (unpacked.memory 0).files := by simp [hfiles]
    obtain ⟨rfl, rfl⟩ := Prod.mk.inj (List.mem_singleton.mp hmem)
    have htext : Path.toText ⟨root.absolute, root.steps ++ ["lib", "x.lua"]⟩ = "/srv/lib/x.lua" := by
      rw [hroot]
      decide
    have hwalk : unpacked.disk.walk true Disk.stepLimit Disk.linkLimit [0]
        (Disk.stepsOfText "/srv/lib/x.lua") = .ok [3, 2, 1, 0] := by decide +kernel
    rw [htext]
    exact ⟨3, Disk.find_of_walk rfl (by simp) (by decide) (by decide +kernel) hwalk rfl,
      by decide +kernel⟩
  have hread : unpacked.openRead (.memory 0) "/.//lib/./x.lua" =
      .ok (.bytes "return 1".toUTF8 0) := by rfl
  obtain ⟨-, hplace, -, hreads⟩ := resolve_agrees_with_key "/" "/srv/./x/.." "/.//lib/./x.lua"
  obtain ⟨-, -, hnone, -⟩ := resolve_agrees_with_key "/" "/srv/./x/.." "lib/../../x"
  have hsame := hplace _ hkey
  rw [show DirectoryStore.root (.ofText "/") "/srv/./x/.." = ⟨true, ["srv"]⟩ from hroot] at hsame
  refine ⟨habsolute, hroot, hkey, ?_, hrefused, hnone hrefused, hdisk, hread,
    hreads unpacked 0 hdisk _ hread⟩
  rw [hroot]
  exact hsame

end DirectoryStore
end Sandbox
