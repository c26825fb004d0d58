import Sandbox.Proofs.Store.Listing
import Sandbox.Proofs.Store.Unpacked

/-!
# Locators of entries

Each entry of a listing tells where it is in the store that has listed it, by the names that lead there
from the root of the store. A memory writes down the key of a file, or the names of a directory that it
has made up, and a directory the way from its root on the disk. However the path has been spelled that
was listed, what an entry tells leads back to it.
-/

namespace Sandbox

open MemoryStore (IsName Canonical names)
open Path (StaysBelow)

/-- A text leads along these names from the root of a store: it is the names with slashes between them,
there is no slash in front of it, its pieces are the names, and none of them is empty, `.` or `..`. -/
structure Locates (url : String) (steps : List String) : Prop where
  text : url = "/".intercalate steps
  relative : url.startsWith '/' = false
  pieces_eq : Path.pieces url = steps
  isName : ∀ name ∈ steps, IsName name

/-- The text of a key leads along its names. -/
theorem MemoryStore.Canonical.locates {key : List String} (h : Canonical key) :
    Locates ("/".intercalate key) key := by
  have htext : Path.toText ⟨false, key⟩ = "/".intercalate key := String.empty_append ..
  have hread : Path.ofText (Path.toText ⟨false, key⟩) = ⟨false, key⟩ :=
    Path.ofText_toText fun name hname => .inr (h.isName name hname)
  rw [htext] at hread
  exact ⟨rfl, congrArg Path.absolute hread, h.pieces_intercalate, h.isName⟩

/-- A name is a path of its own. -/
theorem MemoryStore.IsName.ofText_eq {name : String} (h : IsName name) :
    Path.ofText name = ⟨false, [name]⟩ := by
  have htext : Path.toText ⟨false, [name]⟩ = name := by
    rw [Path.toText, String.intercalate_singleton]
    exact String.empty_append ..
  have hread : Path.ofText (Path.toText ⟨false, [name]⟩) = ⟨false, [name]⟩ :=
    Path.ofText_toText fun step hstep => .inr (List.mem_singleton.mp hstep ▸ h)
  rwa [htext] at hread

/-! ## Memories -/

namespace MemoryStore

variable {m : MemoryStore} {directory : List String}

theorem canonical_append {name : String} (hdirectory : ∀ name ∈ directory, IsName name)
    (hname : IsName name) : Canonical (directory ++ [name]) :=
  ⟨by simp, fun other hother => (List.mem_append.mp hother).elim (hdirectory other)
    fun h => List.mem_singleton.mp h ▸ hname⟩

/-- What a directory shows has its text of names, and it is a file of the store or a directory with
files below it. -/
theorem Sound.of_mem_shown (hsound : m.Sound) (hdirectory : ∀ name ∈ directory, IsName name)
    {e : Entry} (he : e ∈ m.shown directory) :
    Canonical (directory ++ [e.name]) ∧ e.url = "/".intercalate (directory ++ [e.name]) ∧
      if e.isDirectory then m.below (directory ++ [e.name]) ≠ []
      else ∃ data, m.bytes? (directory ++ [e.name]) = some data ∧ data.size = e.size := by
  rcases List.mem_append.mp he with hfile | hmade
  · obtain ⟨name, file, hmem, rfl⟩ := mem_fileEntries_iff.mp hfile
    have hget := hsound.mem_files_iff.mp hmem
    refine ⟨hsound.canonical _ hmem, rfl, ?_⟩
    rw [Entry.of, if_neg Bool.false_ne_true]
    exact ⟨file.data, by rw [bytes?, hget, Option.map_some], rfl⟩
  · obtain ⟨name, hname, rfl⟩ := List.mem_map.mp hmade
    obtain ⟨hname, hbelow, -⟩ := of_mem_directoryNames hsound hname
    exact ⟨canonical_append hdirectory hname, rfl, hbelow⟩

end MemoryStore

/-- An entry that a memory lists leads back to its file, which has as many bytes, or to its directory,
which can be listed. -/
theorem Storage.url_of_list_memory {s : Storage} {id : Nat} (hsound : (s.memory id).Sound)
    {path : String} {entries : List Entry} (hlist : s.list (.memory id) path = .ok entries)
    {e : Entry} (he : e ∈ entries) :
    Locates e.url (names path ++ [e.name]) ∧
      MemoryStore.key e.url = .ok (names path ++ [e.name]) ∧
      if e.isDirectory then ∃ inner, s.list (.memory id) e.url = .ok inner
      else ∃ data, s.openRead (.memory id) e.url = .ok (.bytes data 0) ∧ data.size = e.size := by
  rw [list] at hlist
  obtain ⟨hdots, -, rfl⟩ := MemoryStore.list_eq_ok_iff.mp hlist
  have hdirectory : ∀ name ∈ names path, IsName name := fun _ => MemoryStore.isName_of_mem_names hdots
  obtain ⟨hcanonical, hurl, hthere⟩ :=
    hsound.of_mem_shown hdirectory (List.mem_mergeSort.mp he)
  have hnames : names e.url = names path ++ [e.name] := hurl ▸ hcanonical.names_intercalate
  refine ⟨hurl ▸ hcanonical.locates, (hcanonical.key_eq_ok_iff _).mpr hnames, ?_⟩
  split at hthere
  case isTrue hmade =>
    rw [if_pos hmade]
    rw [list]
    refine ⟨_, MemoryStore.list_eq_ok_iff.mpr ⟨hnames ▸ hcanonical.dots_not_mem, fun hnil => ?_, rfl⟩⟩
    exact absurd hnil (hnames ▸ MemoryStore.shown_ne_nil hthere)
  case isFalse hfile =>
    obtain ⟨data, hdata, hsize⟩ := hthere
    rw [if_neg hfile]
    refine ⟨data, ?_, hsize⟩
    rw [openRead_memory, hnames, if_neg hcanonical.dots_not_mem, hdata]

/-! ## Directories -/

namespace DirectoryStore

variable {d : Disk} {root place : Path} {path : String}

/-- The names in a directory of the disk are texts that could stand in a key, as those of an operating
system are, apart from the text. -/
def HasTextNames (d : Disk) (place : Path) : Prop :=
  ∀ raw, entriesAt d place.toText = .ok raw →
    ∀ e ∈ raw, ∃ name : String, e.1 = name.toByteArray ∧ IsName name

theorem entryOf_name (base : Path) (name : ByteArray) (n : Disk.Node) :
    (entryOf base name n).name = name.toTextLossy := by
  unfold entryOf
  cases n.content <;> rfl

theorem entryOf_url (base : Path) (name : ByteArray) (n : Disk.Node) :
    (entryOf base name n).url = (base.join (.ofText name.toTextLossy)).toText := by
  unfold entryOf
  cases n.content <;> rfl

/-- A listing shows what the disk has at the place of the path. -/
theorem exists_entriesAt_of_list {entries : List Entry} (hlist : list d root path = .ok entries) :
    ∃ place raw, resolve root path = .ok place ∧ entriesAt d place.toText = .ok raw ∧
      entries = entriesOf d ⟨false, (place.below? root).getD []⟩ raw := by
  rw [list, atPath] at hlist
  cases hplace : resolve root path with
  | error e =>
    rw [hplace] at hlist
    cases hlist
  | ok place =>
    cases hraw : entriesAt d place.toText with
    | error cause =>
      simp only [hplace, bind, Except.bind, hraw] at hlist
      cases hlist
    | ok raw =>
      simp only [hplace, bind, Except.bind, hraw] at hlist
      exact ⟨place, raw, rfl, hraw, (Except.ok.inj hlist).symm⟩

/-- A path that resolves leads along names from the root, if the root is a place or the path never leads
above its start. -/
theorem exists_below_of_resolve (hroot : root.clean = root)
    (hinside : root.IsPlace ∨ StaysBelow (Path.ofText path).steps)
    (h : resolve root path = .ok place) :
    ∃ below, place = ⟨root.absolute, root.steps ++ below⟩ ∧ ∀ name ∈ below, IsName name := by
  rcases hinside with hplace | hstays
  · obtain ⟨hisPlace, below, hsteps⟩ := within_of_resolve hplace h
    refine ⟨below, ?_, fun name hname => hisPlace.isName name (by simp [← hsteps, hname])⟩
    obtain ⟨absolute, steps⟩ := place
    rw [hplace.absolute, hsteps]
    exact congrArg (Path.mk · steps) hisPlace.absolute
  · rw [resolve_of_staysBelow hroot hstays] at h
    refine ⟨_, (Except.ok.inj h).symm, fun name hname => ?_⟩
    obtain ⟨hmem, hdots⟩ := (Path.mem_of_mem_walk hname).resolve_left List.not_mem_nil
    exact Path.isName_of_mem_steps hmem hdots

/-- An entry that a directory lists leads back to its place on the disk. -/
theorem url_of_list (hroot : root.clean = root)
    (hinside : root.IsPlace ∨ StaysBelow (Path.ofText path).steps)
    (hdisk : ∀ place, resolve root path = .ok place → HasTextNames d place) {entries : List Entry}
    (hlist : list d root path = .ok entries) :
    ∃ below, resolve root path = .ok ⟨root.absolute, root.steps ++ below⟩ ∧ ∀ e ∈ entries,
      Locates e.url (below ++ [e.name]) ∧
        resolve root e.url = .ok ⟨root.absolute, root.steps ++ below ++ [e.name]⟩ := by
  obtain ⟨place, raw, hplace, hraw, rfl⟩ := exists_entriesAt_of_list hlist
  obtain ⟨below, rfl, hbelow⟩ := exists_below_of_resolve hroot hinside hplace
  refine ⟨below, hplace, fun e he => ?_⟩
  obtain ⟨⟨bytes, number⟩, hmem, rfl⟩ := List.mem_map.mp (List.mem_mergeSort.mp he)
  obtain ⟨name, rfl, hname⟩ := hdisk _ hplace raw hraw _ hmem
  have hsteps : (Path.below? ⟨root.absolute, root.steps ++ below⟩ root).getD [] = below := by
    simp [Path.below?, Path.isWithin]
  have hcanonical : Canonical (below ++ [name]) := MemoryStore.canonical_append hbelow hname
  have hread : Path.ofText name = ⟨false, [name]⟩ := hname.ofText_eq
  have hurl : (entryOf ⟨false, below⟩ name.toByteArray (d.node number)).url =
      "/".intercalate (below ++ [name]) := by
    rw [entryOf_url, ByteArray.toTextLossy_toByteArray, hread]
    exact String.empty_append ..
  have hkey : MemoryStore.key ("/".intercalate (below ++ [name])) = .ok (below ++ [name]) :=
    (hcanonical.key_eq_ok_iff _).mpr hcanonical.names_intercalate
  simp only [hsteps, hurl, entryOf_name, ByteArray.toTextLossy_toByteArray]
  refine ⟨hcanonical.locates, ?_⟩
  rw [resolve_of_key hroot hkey, List.append_assoc]

end DirectoryStore

namespace Storage

open DirectoryStore (HasTextNames resolve)

/-- Entries lead back to what they stand for, whatever has been asked before and however the path has
been spelled that is listed. In a memory the text of an entry is already that of its key, a file is
opened by it and has as many bytes as the entry says, and a directory can be listed by it. In a
directory of the disk, whose root is absolute or is not left on the way, the text begins at this root
and resolves to what the listed path resolves to, and then the name of the entry. -/
theorem list_leads_back {access : Access} (haccess : access.Reachable) (path : String) :
    let s := access.storage
    (∀ id entries, s.list (.memory id) path = .ok entries → ∀ e ∈ entries,
      Locates e.url (names path ++ [e.name]) ∧
        MemoryStore.key e.url = .ok (names path ++ [e.name]) ∧
        if e.isDirectory then ∃ inner, s.list (.memory id) e.url = .ok inner
        else ∃ data, s.openRead (.memory id) e.url = .ok (.bytes data 0) ∧ data.size = e.size) ∧
    ∀ cwd text, let root := DirectoryStore.root (.ofText cwd) text
      (text.startsWith '/' = true ∨ cwd.startsWith '/' = true) ∨
        StaysBelow (Path.ofText path).steps →
      (∀ place, resolve root path = .ok place → HasTextNames s.disk place) →
      ∀ entries, s.list (.directory root) path = .ok entries →
      ∃ below, resolve root path = .ok ⟨root.absolute, root.steps ++ below⟩ ∧ ∀ e ∈ entries,
        Locates e.url (below ++ [e.name]) ∧
          resolve root e.url = .ok ⟨root.absolute, root.steps ++ below ++ [e.name]⟩ := by
  intro s
  refine ⟨fun id entries hlist e he => ?_, fun cwd text => ?_⟩
  · exact url_of_list_memory (haccess.sound.memories id) hlist he
  · intro root hinside hdisk entries hlist
    rw [list] at hlist
    exact DirectoryStore.url_of_list (Path.clean_clean _)
      (hinside.imp_left DirectoryStore.isPlace_root) hdisk hlist

/-- A memory with a file, and a disk with the same file below a root. -/
def twofold : Access :=
  (Access.run (.memory 0) (.fresh 1 DirectoryStore.unpacked.disk .epoch)
    [.insert 0 "lib/x.lua" "return 1".toUTF8]).1

/-- A directory is listed by two detours, in the memory and on the disk, and its file is found. -/
theorem list_leads_back_of_detour :
    let s := twofold.storage
    let root := DirectoryStore.root (.ofText "/") "/srv"
    twofold.Reachable ∧ "/srv".startsWith '/' = true ∧
      (∀ place, resolve root "lib/../lib" = .ok place → HasTextNames s.disk place) ∧
      (∃ e, s.list (.memory 0) "//lib/." = .ok [e] ∧ e.isDirectory = false ∧
        Locates e.url ["lib", "x.lua"] ∧
        ∃ data, s.openRead (.memory 0) e.url = .ok (.bytes data 0) ∧ data.size = e.size) ∧
      ∃ e, s.list (.directory root) "lib/../lib" = .ok [e] ∧ Locates e.url ["lib", "x.lua"] ∧
        resolve root e.url = .ok ⟨true, ["srv", "lib", "x.lua"]⟩ := by
  intro s root
  have haccess : twofold.Reachable :=
    (Access.Reachable.fresh 1 DirectoryStore.unpacked.disk .epoch).run _ _
  have habsolute : "/srv".startsWith '/' = true := by decide
  have hplace : resolve root "lib/../lib" = .ok ⟨true, ["srv", "lib"]⟩ := by decide
  have htext : Path.toText ⟨true, ["srv", "lib"]⟩ = "/srv/lib" := by decide
  have hwalk : s.disk.walk true Disk.stepLimit Disk.linkLimit [0] (Disk.stepsOfText "/srv/lib") =
      .ok [2, 1, 0] := by decide +kernel
  have hraw : DirectoryStore.entriesAt s.disk "/srv/lib" = .ok [("x.lua".toByteArray, 3)] := by
    rw [DirectoryStore.entriesAt,
      Disk.find_of_walk rfl (by simp) (by decide) (by decide +kernel) hwalk rfl]
    rfl
  have hdisk : ∀ place, resolve root "lib/../lib" = .ok place → HasTextNames s.disk place := by
    intro place h raw hentries e he
    obtain rfl := Except.ok.inj (hplace.symm.trans h)
    rw [htext, hraw] at hentries
    obtain rfl := Except.ok.inj hentries
    obtain rfl := List.mem_singleton.mp he
    exact ⟨"x.lua", rfl, by decide, by decide, by decide, by decide⟩
  let file : Entry := .of "x.lua" "lib/x.lua" false .epoch 8
  have hmemory : s.list (.memory 0) "//lib/." = .ok [file] := by
    have hnames : names "//lib/." = ["lib"] := by decide
    have hshown : (s.memory 0).shown ["lib"] = [file] := by rfl
    rw [list]
    refine MemoryStore.list_eq_ok_iff.mpr ⟨by simp [hnames], ?_, ?_⟩
    · simp [hnames, hshown]
    · rw [hnames, hshown, Entry.sort, List.mergeSort_singleton]
  let shown : Entry := DirectoryStore.entryOf ⟨false, ["lib"]⟩ "x.lua".toByteArray (s.disk.node 3)
  have hdirectory : s.list (.directory root) "lib/../lib" = .ok [shown] := by
    have hsort : DirectoryStore.entriesOf s.disk ⟨false, ["lib"]⟩ [("x.lua".toByteArray, 3)] =
        [shown] := List.mergeSort_singleton ..
    rw [list, DirectoryStore.list, DirectoryStore.atPath, hplace]
    simp only [bind, Except.bind, htext, hraw]
    exact congrArg Except.ok hsort
  have hname : shown.name = "x.lua" := by
    rw [DirectoryStore.entryOf_name, ByteArray.toTextLossy_toByteArray]
  obtain ⟨hfound, -⟩ := list_leads_back haccess "//lib/."
  obtain ⟨hlocates, -, hread⟩ := hfound 0 [file] hmemory file List.mem_cons_self
  obtain ⟨-, hback⟩ := list_leads_back haccess "lib/../lib"
  obtain ⟨below, hbelow, hurls⟩ := hback "/" "/srv" (.inl (.inl habsolute)) hdisk _ hdirectory
  obtain rfl : below = ["lib"] := by
    have hsteps := congrArg Path.steps (Except.ok.inj (hplace.symm.trans hbelow))
    exact (List.cons.inj hsteps).2.symm
  obtain ⟨hurl, hresolve⟩ := hurls shown List.mem_cons_self
  rw [hname] at hurl hresolve
  exact ⟨haccess, habsolute, hdisk, ⟨file, hmemory, rfl, hlocates, hread⟩,
    shown, hdirectory, hurl, hresolve⟩

end Storage
end Sandbox
