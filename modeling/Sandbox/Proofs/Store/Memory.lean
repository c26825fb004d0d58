import Sandbox.Store.Memory
import Sandbox.Proofs.Store.Key
import Mathlib.Data.List.Nodup

/-!
# Memory stores as maps

A memory store is a finite map from canonical keys to files. `MemoryStore.get?` is the map,
`MemoryStore.Sound` says that the list behind it holds each key once and only canonical ones, and each
operation has one law about the map: what it does at one key, and that the others stay.
-/

namespace Sandbox

namespace Disk

/-- Bytes that are written from the start on stand in front of the rest of the data. -/
theorem overwrite_zero (data bytes : ByteArray) :
    overwrite data 0 bytes = bytes ++ data.extract bytes.size data.size := by
  simp [overwrite]

/-- Writing nothing changes nothing. -/
theorem overwrite_empty (data : ByteArray) : overwrite data 0 .empty = data := by
  simp [overwrite_zero]

/-- Bytes that are written behind those of an earlier write go on where these end. -/
theorem overwrite_overwrite (data bytes more : ByteArray) :
    overwrite (overwrite data 0 bytes) bytes.size more = overwrite data 0 (bytes ++ more) := by
  have hpad (d : ByteArray) :
      (List.range (bytes.size - (bytes ++ d).size)).foldl (fun d _ => d.push 0) (bytes ++ d) =
        bytes ++ d := by
    simp [ByteArray.size_append]
  have hrest : (bytes ++ data.extract bytes.size data.size).extract (bytes.size + more.size)
      (bytes ++ data.extract bytes.size data.size).size =
        data.extract (bytes.size + more.size) data.size := by
    rw [ByteArray.size_append, ByteArray.extract_append_size_add, ByteArray.extract_extract,
      ByteArray.size_extract]
    congr 1
    omega
  simp only [overwrite_zero]
  rw [overwrite]
  simp only [hpad, hrest]
  rw [ByteArray.extract_append_eq_left rfl, ByteArray.size_append]

end Disk

namespace MemoryStore

/-- No key occurs twice, and every key is canonical. -/
structure Sound (s : MemoryStore) : Prop where
  nodup : (s.files.map (·.1)).Nodup
  canonical : ∀ e ∈ s.files, Canonical e.1

/-- The bytes of the file with this key. -/
def bytes? (s : MemoryStore) (key : List String) : Option ByteArray := (s.get? key).map (·.data)

/-- A store without files is sound. -/
theorem sound_empty : Sound {} :=
  ⟨List.nodup_nil, fun _ he => absurd he List.not_mem_nil⟩

/-- Only canonical keys have files. -/
theorem Sound.canonical_of_get? {s : MemoryStore} (h : s.Sound) {key : List String} {file : MemoryFile}
    (hget : s.get? key = some file) : Canonical key := by
  obtain ⟨front, back, hfiles, -⟩ := List.lookup_eq_some_iff.mp hget
  exact h.canonical (key, file) (by simp [hfiles])

/-- The files of a sound store are those that the map gives. -/
theorem Sound.mem_files_iff {s : MemoryStore} (h : s.Sound) {key : List String} {file : MemoryFile} :
    (key, file) ∈ s.files ↔ s.get? key = some file := by
  constructor
  · intro hmem
    obtain ⟨front, back, hfiles⟩ := List.append_of_mem hmem
    refine List.lookup_eq_some_iff.mpr ⟨front, back, hfiles, fun e he => ?_⟩
    have hnodup := h.nodup
    rw [hfiles, List.map_append, List.nodup_append] at hnodup
    simpa using (hnodup.2.2 e.1 (List.mem_map_of_mem he) key (by simp)).symm
  · intro hget
    obtain ⟨front, back, hfiles, -⟩ := List.lookup_eq_some_iff.mp hget
    simp [hfiles]

/-! ## Changing the map -/

/-- Replacing the file of one key keeps the keys. -/
theorem map_fst_replace (files : List (List String × MemoryFile)) (key : List String)
    (file : MemoryFile) :
    (files.map fun e => if e.1 = key then (key, file) else e).map (·.1) = files.map (·.1) := by
  rw [List.map_map]
  refine List.map_congr_left fun e _ => ?_
  by_cases heq : e.1 = key <;> simp [heq]

/-- Setting a key changes the file of this key. -/
theorem get?_set (s : MemoryStore) (key other : List String) (file : MemoryFile) :
    (s.set key file).get? other = if other = key then some file else s.get? other := by
  have hmap (files : List (List String × MemoryFile)) :
      (files.map fun e => if e.1 = key then (key, file) else e).lookup other =
        if other = key then (files.lookup key).map fun _ => file else files.lookup other := by
    induction files with
    | nil => simp
    | cons e rest ih =>
      rw [List.map_cons, List.lookup_cons, List.lookup_cons, List.lookup_cons, ih]
      by_cases hother : other = key
      · subst hother
        by_cases heq : e.1 = other
        · simp [heq]
        · simp [heq, beq_false_of_ne (Ne.symm heq)]
      · by_cases heq : e.1 = key
        · simp [heq, hother, beq_false_of_ne hother]
        · simp [heq, hother]
  unfold set get?
  split
  case isTrue hsome =>
    obtain ⟨old, hold⟩ := Option.isSome_iff_exists.mp hsome
    rw [hmap]
    split
    case isTrue => simp [hold]
    case isFalse => rfl
  case isFalse hnone =>
    have hlookup : s.files.lookup key = none := Option.not_isSome_iff_eq_none.mp hnone
    rw [List.lookup_append, List.lookup_cons, List.lookup_nil]
    by_cases heq : other = key
    · simp [heq, hlookup]
    · simp [heq, beq_false_of_ne heq]

/-- Taking a key away leaves the other ones. -/
theorem get?_erase (s : MemoryStore) (key other : List String) :
    (s.erase key).get? other = if other = key then none else s.get? other := by
  have hfilter (files : List (List String × MemoryFile)) :
      (files.filter fun e => decide (e.1 ≠ key)).lookup other =
        if other = key then none else files.lookup other := by
    induction files with
    | nil => simp
    | cons e rest ih =>
      rw [List.filter_cons, List.lookup_cons]
      by_cases heq : e.1 = key
      · rw [if_neg (by simp [heq]), ih, heq]
        by_cases hother : other = key
        · simp [hother]
        · simp [hother, beq_false_of_ne hother]
      · rw [if_pos (by simp [heq]), List.lookup_cons, ih]
        by_cases hother : other = key
        · simp [hother, beq_false_of_ne (Ne.symm heq)]
        · simp [hother]
  exact hfilter s.files

/-- Setting a canonical key keeps a store sound. -/
theorem Sound.set {s : MemoryStore} (h : s.Sound) {key : List String} (hkey : Canonical key)
    (file : MemoryFile) : (s.set key file).Sound := by
  unfold MemoryStore.set
  split
  case isTrue =>
    refine ⟨?_, fun e he => ?_⟩
    · simpa only [map_fst_replace] using h.nodup
    · obtain ⟨old, hold, rfl⟩ := List.mem_map.mp he
      split
      · exact hkey
      · exact h.canonical old hold
  case isFalse hnone =>
    have hnew : key ∉ s.files.map (·.1) := by
      intro hmem
      obtain ⟨e, he, rfl⟩ := List.mem_map.mp hmem
      exact hnone (by rw [h.mem_files_iff.mp he]; rfl)
    refine ⟨?_, fun e he => ?_⟩
    · rw [List.map_append, List.map_singleton]
      exact h.nodup.append (List.nodup_singleton key) (by simpa using hnew)
    · rcases List.mem_append.mp he with he | he
      · exact h.canonical e he
      · rw [List.mem_singleton.mp he]
        exact hkey

/-- Taking a key away keeps a store sound. -/
theorem Sound.erase {s : MemoryStore} (h : s.Sound) (key : List String) : (s.erase key).Sound :=
  ⟨h.nodup.sublist (List.filter_sublist.map _), fun e he => h.canonical e (List.mem_of_mem_filter he)⟩

theorem bytes?_set (s : MemoryStore) (key other : List String) (file : MemoryFile) :
    (s.set key file).bytes? other = if other = key then some file.data else s.bytes? other := by
  rw [bytes?, get?_set, bytes?]
  split <;> rfl

theorem bytes?_erase (s : MemoryStore) (key other : List String) :
    (s.erase key).bytes? other = if other = key then none else s.bytes? other := by
  rw [bytes?, get?_erase, bytes?]
  split <;> rfl

/-! ## Requests -/

/-- A path without names and one with `..` are refused, and any other one takes a file. -/
theorem insert_eq (s : MemoryStore) (now : Timestamp) (path : String) (data : ByteArray) :
    s.insert now path data =
      if ".." ∈ names path ∨ names path = [] then .error (.invalidPath path)
      else .ok (s.set (names path) ⟨data, now⟩) := by
  rw [insert, key_eq]
  by_cases hdots : ".." ∈ names path
  · simp only [hdots, true_or, if_true]
    rfl
  · by_cases hnil : names path = []
    · simp only [hnil, or_true, if_true, List.not_mem_nil, if_false]
      rfl
    · simp only [hdots, hnil, or_false, if_false]
      simp [bind, Except.bind, hnil, pure, Except.pure]

/-- A path leads to the bytes of the file that it addresses. -/
theorem read_eq (s : MemoryStore) (path : String) :
    s.read path = if ".." ∈ names path then .error (.invalidPath path)
      else match s.bytes? (names path) with
        | some data => .ok data
        | none => .error (.notFound path) := by
  rw [read, key_eq, bytes?]
  split
  · rfl
  · cases hget : s.get? (names path) <;> simp only [bind, Except.bind, hget] <;> rfl

/-- The file that a path addresses is taken away. -/
theorem delete_eq (s : MemoryStore) (path : String) :
    s.delete path = if ".." ∈ names path then .error (.invalidPath path)
      else match s.bytes? (names path) with
        | some _ => .ok (s.erase (names path))
        | none => .error (.notFound path) := by
  rw [delete, key_eq, bytes?]
  split
  · rfl
  · cases hget : s.get? (names path) <;> simp only [bind, Except.bind, hget] <;> rfl

end MemoryStore
end Sandbox
