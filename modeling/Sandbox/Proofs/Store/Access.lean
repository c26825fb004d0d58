import Sandbox.Store.Routing
import Sandbox.Proofs.Store.Memory

/-!
# Access to stores

A run of requests: files are put into memories, and through some store they are opened, read, written,
listed and taken away, with any number of readers and writers open at once. `Access.step` answers one
request and `Access.run` a sequence of them. Whatever the requests and the stores, every memory keeps
only canonical keys, and no key twice.
-/

namespace Sandbox

/-- The files behind all stores, with the readers and writers that have been opened so far. -/
structure Access where
  storage : Storage
  readers : Array Storage.Reader := #[]
  /-- A writer that has been closed leaves its place empty. -/
  writers : Array (Option Storage.Writer) := #[]

namespace Access

/-- What can be asked. Readers and writers go by the numbers in which they have been opened. -/
inductive Request
  | insert (id : Nat) (path : String) (data : ByteArray)
  | openRead (path : String)
  | read (reader count : Nat)
  | openWrite (path : String)
  | write (writer : Nat) (bytes : ByteArray)
  | flush (writer : Nat)
  | close (writer : Nat)
  | delete (path : String)
  | list (path : String)
  /-- The clock goes on. -/
  | wait (now : Timestamp)

/-- What is answered. -/
inductive Answer
  | done
  /-- A reader or writer with this number. -/
  | opened (number : Nat)
  | bytes (chunk : ByteArray)
  | entries (entries : List Entry)
  | refused (error : Store.Error)
  | failed (cause : Disk.Refusal)
  /-- There is no such memory, reader or writer. -/
  | unknown

/-- Answers one request, which goes through the store `top`. -/
def step (top : Store) (s : Access) : Request → Access × Answer
  | .insert id path data =>
    if id < s.storage.memories.size then
      match s.storage.insert id path data with
      | .ok storage => ({ s with storage }, .done)
      | .error e => (s, .refused e)
    else (s, .unknown)
  | .openRead path =>
    match s.storage.openRead top path with
    | .ok reader => ({ s with readers := s.readers.push reader }, .opened s.readers.size)
    | .error e => (s, .refused e)
  | .read r count =>
    match s.readers[r]? with
    | some reader =>
      match s.storage.readSome reader count with
      | .ok (chunk, reader) => ({ s with readers := s.readers.setIfInBounds r reader }, .bytes chunk)
      | .error cause => (s, .failed cause)
    | none => (s, .unknown)
  | .openWrite path =>
    match s.storage.openWrite top path with
    | .ok writer => ({ s with writers := s.writers.push (some writer) }, .opened s.writers.size)
    | .error e => (s, .refused e)
  | .write w bytes =>
    match s.writers[w]? with
    | some (some writer) =>
      let (storage, writer) := s.storage.write writer bytes
      ({ s with storage, writers := s.writers.setIfInBounds w (some writer) }, .done)
    | _ => (s, .unknown)
  | .flush w =>
    match s.writers[w]? with
    | some (some writer) => ({ s with storage := s.storage.commit writer }, .done)
    | _ => (s, .unknown)
  | .close w =>
    match s.writers[w]? with
    | some (some writer) =>
      let storage := s.storage.commit writer
      ({ s with storage, writers := s.writers.setIfInBounds w none }, .done)
    | _ => (s, .unknown)
  | .delete path =>
    match s.storage.delete top path with
    | .ok storage => ({ s with storage }, .done)
    | .error e => (s, .refused e)
  | .list path =>
    match s.storage.list top path with
    | .ok entries => (s, .entries entries)
    | .error e => (s, .refused e)
  | .wait now => ({ s with storage := { s.storage with now } }, .done)

/-- The start: this many memories without files, and a disk. -/
def fresh (count : Nat) (disk : Disk) (now : Timestamp) : Access :=
  { storage := { memories := Array.replicate count {}, disk, now } }

/-- Requests with their answers, the latest first. -/
abbrev History := List (Request × Answer)

/-- Answers requests, of which the latest one comes first. -/
def run (top : Store) (start : Access) : List Request → Access × History
  | [] => (start, [])
  | request :: earlier =>
    let (s, past) := run top start earlier
    let (s, answer) := s.step top request
    (s, (request, answer) :: past)

/-- What requests through stores of any kind lead to. -/
inductive Reachable : Access → Prop
  | fresh (count : Nat) (disk : Disk) (now : Timestamp) : Reachable (fresh count disk now)
  | step {s : Access} (top : Store) (request : Request) : Reachable s →
      Reachable (s.step top request).1

end Access

/-! ## What requests do to memories -/

namespace Storage

variable {s : Storage} {id : Nat}

/-- Replacing a memory leaves the other ones. -/
theorem memory_setMemory (s : Storage) (id other : Nat) (m : MemoryStore) :
    (s.setMemory id m).memory other =
      if other = id ∧ id < s.memories.size then m else s.memory other := by
  simp only [memory, setMemory, Array.getD_eq_getD_getElem?, Array.getElem?_setIfInBounds]
  grind

/-- A memory takes a file at each path that addresses a key. -/
theorem insert_eq (s : Storage) (id : Nat) (path : String) (data : ByteArray) :
    s.insert id path data =
      if ".." ∈ MemoryStore.names path ∨ MemoryStore.names path = [] then .error (.invalidPath path)
      else .ok (s.setMemory id ((s.memory id).set (MemoryStore.names path) ⟨data, s.now⟩)) := by
  rw [insert, MemoryStore.insert_eq]
  split <;> rfl

/-- A memory opens what the path addresses for reading. -/
theorem openRead_memory (s : Storage) (id : Nat) (path : String) :
    s.openRead (.memory id) path =
      if ".." ∈ MemoryStore.names path then .error (.invalidPath path)
      else match (s.memory id).bytes? (MemoryStore.names path) with
        | some data => .ok (.bytes data 0)
        | none => .error (.notFound path) := by
  simp only [openRead, Store.locate, MemoryStore.read_eq]
  split
  · rfl
  · cases (s.memory id).bytes? (MemoryStore.names path) <;> rfl

/-- A memory opens what the path addresses for writing. -/
theorem openWrite_memory (s : Storage) (id : Nat) (path : String) :
    s.openWrite (.memory id) path =
      if ".." ∈ MemoryStore.names path ∨ MemoryStore.names path = [] then .error (.invalidPath path)
      else match (s.memory id).bytes? (MemoryStore.names path) with
        | some data => .ok (.bytes id (MemoryStore.names path) data 0)
        | none => .error (.notFound path) := by
  simp only [openWrite, Store.locate, MemoryStore.key_eq, MemoryStore.bytes?, Bool.false_eq_true,
    if_false]
  by_cases hdots : ".." ∈ MemoryStore.names path
  · simp only [hdots, true_or, if_true]
    rfl
  · by_cases hnil : MemoryStore.names path = []
    · simp only [hnil, or_true, if_true, List.not_mem_nil, if_false]
      rfl
    · simp only [hdots, hnil, or_false, if_false, List.isEmpty_iff, bind, Except.bind, pure,
        Except.pure]
      cases (s.memory id).get? (MemoryStore.names path) <;> rfl

/-- A memory takes away what the path addresses. -/
theorem delete_memory (s : Storage) (id : Nat) (path : String) :
    s.delete (.memory id) path =
      if ".." ∈ MemoryStore.names path then .error (.invalidPath path)
      else match (s.memory id).bytes? (MemoryStore.names path) with
        | some _ => .ok (s.setMemory id ((s.memory id).erase (MemoryStore.names path)))
        | none => .error (.notFound path) := by
  simp only [delete, Store.locate, MemoryStore.delete_eq, Bool.false_eq_true, if_false]
  split
  · rfl
  · cases (s.memory id).bytes? (MemoryStore.names path) <;> rfl

/-- The writer is not one of a memory, or it is one of a canonical key. -/
def Writer.Canonical : Writer → Prop
  | .bytes _ key _ _ => MemoryStore.Canonical key
  | .node .. => True

/-- A file that is opened for writing has a canonical key. -/
theorem canonical_of_openWrite {store : Store} {path : String} {writer : Writer}
    (h : s.openWrite store path = .ok writer) : writer.Canonical := by
  cases hreadOnly : (store.locate path).isReadOnly with
  | true => simp [openWrite, hreadOnly] at h
  | false =>
    cases hbackend : (store.locate path).backend with
    | memory id =>
      have hmemory : s.openWrite store path = s.openWrite (.memory id) (store.locate path).path := by
        simp [openWrite, Store.locate, hreadOnly, hbackend]
      rw [hmemory, openWrite_memory] at h
      split at h
      · cases h
      · rename_i hnames
        obtain ⟨hdots, hne⟩ := not_or.mp hnames
        split at h
        · cases h
          exact MemoryStore.canonical_names hdots hne
        · cases h
    | directory root =>
      simp only [openWrite, hreadOnly, hbackend, Bool.false_eq_true, if_false, bind, Except.bind] at h
      split at h
      · cases h
      · cases h
        trivial

/-- Taking a file away keeps all memories sound. -/
theorem sound_of_delete (hsound : ∀ id, (s.memory id).Sound) {store : Store} {path : String}
    {after : Storage} (h : s.delete store path = .ok after) (id : Nat) : (after.memory id).Sound := by
  cases hreadOnly : (store.locate path).isReadOnly with
  | true => simp [delete, hreadOnly] at h
  | false =>
    cases hbackend : (store.locate path).backend with
    | memory number =>
      have hmemory : s.delete store path = s.delete (.memory number) (store.locate path).path := by
        simp [delete, Store.locate, hreadOnly, hbackend]
      rw [hmemory, delete_memory] at h
      split at h
      · cases h
      · split at h
        · cases h
          rw [memory_setMemory]
          split
          · exact (hsound number).erase _
          · exact hsound id
        · cases h
    | directory root =>
      simp only [delete, hreadOnly, hbackend, Bool.false_eq_true, if_false, bind, Except.bind] at h
      split at h
      · cases h
      · cases h
        exact hsound id

/-- Putting a file into a memory keeps all memories sound. -/
theorem sound_of_insert (hsound : ∀ id, (s.memory id).Sound) {path : String} {data : ByteArray}
    {after : Storage} (h : s.insert id path data = .ok after) (other : Nat) :
    (after.memory other).Sound := by
  rw [insert_eq] at h
  split at h
  · cases h
  · rename_i hnames
    obtain ⟨hdots, hne⟩ := not_or.mp hnames
    cases h
    rw [memory_setMemory]
    split
    · exact (hsound id).set (MemoryStore.canonical_names hdots hne) _
    · exact hsound other

/-- Writing changes no memory. -/
theorem memory_write (s : Storage) (writer : Writer) (bytes : ByteArray) (id : Nat) :
    (s.write writer bytes).1.memory id = s.memory id := by
  cases writer with
  | bytes => rfl
  | node =>
    rw [write]
    split <;> rfl

theorem Writer.Canonical.write {writer : Writer} (h : writer.Canonical) (s : Storage)
    (bytes : ByteArray) : (s.write writer bytes).2.Canonical := by
  cases writer with
  | bytes => exact h
  | node =>
    rw [Storage.write]
    split <;> trivial

/-- Committing keeps all memories sound. -/
theorem sound_commit (hsound : ∀ id, (s.memory id).Sound) {writer : Writer} (h : writer.Canonical)
    (id : Nat) : ((s.commit writer).memory id).Sound := by
  cases writer with
  | bytes number key buffer position =>
    rw [commit, memory_setMemory]
    split
    · exact (hsound number).set h _
    · exact hsound id
  | node => exact hsound id

end Storage

namespace Access

/-- Every memory is sound, and so is the key of every writer. -/
structure Sound (s : Access) : Prop where
  memories : ∀ id, (s.storage.memory id).Sound
  writers : ∀ (w : Nat) (writer : Storage.Writer), s.writers[w]? = some (some writer) →
    writer.Canonical

/-- At the start there are no files and no writers. -/
theorem sound_fresh (count : Nat) (disk : Disk) (now : Timestamp) : Sound (fresh count disk now) := by
  refine ⟨fun id => ?_, fun w writer h => by simp [fresh] at h⟩
  have hempty : (fresh count disk now).storage.memory id = {} := by
    by_cases hid : id < count <;> simp [fresh, Storage.memory, hid]
  rw [hempty]
  exact MemoryStore.sound_empty

/-- Where another writer takes the place of one, or nothing does, the keys of all writers stay
canonical. -/
theorem Sound.replace {s : Access} (h : s.Sound) (w : Nat) {place : Option Storage.Writer}
    (hplace : ∀ writer, place = some writer → writer.Canonical) (v : Nat) (writer : Storage.Writer)
    (hget : (s.writers.setIfInBounds w place)[v]? = some (some writer)) : writer.Canonical := by
  rw [Array.getElem?_setIfInBounds] at hget
  split at hget
  · split at hget
    · exact hplace writer (Option.some.inj hget)
    · cases hget
  · exact h.writers v writer hget

/-- The key of a new writer is canonical like those of the others. -/
theorem Sound.push {s : Access} (h : s.Sound) {new : Storage.Writer} (hnew : new.Canonical) (v : Nat)
    (writer : Storage.Writer) (hget : (s.writers.push (some new))[v]? = some (some writer)) :
    writer.Canonical := by
  rw [Array.getElem?_push] at hget
  split at hget
  · cases hget
    exact hnew
  · exact h.writers v writer hget

/-- Every request keeps all memories sound. -/
theorem Sound.step {s : Access} (h : s.Sound) (top : Store) (request : Request) :
    (s.step top request).1.Sound := by
  cases request with
  | insert id path data =>
    rw [Access.step]
    split
    · split
      · rename_i storage hinsert
        exact ⟨Storage.sound_of_insert h.memories hinsert, h.writers⟩
      · exact h
    · exact h
  | openRead path =>
    rw [Access.step]
    split
    · exact ⟨h.memories, h.writers⟩
    · exact h
  | read r count =>
    rw [Access.step]
    split
    · split
      · exact ⟨h.memories, h.writers⟩
      · exact h
    · exact h
  | openWrite path =>
    rw [Access.step]
    split
    · rename_i writer hopen
      exact ⟨h.memories, h.push (Storage.canonical_of_openWrite hopen)⟩
    · exact h
  | write w bytes =>
    rw [Access.step]
    split
    · rename_i writer hwriter
      refine ⟨fun id => ?_, h.replace w fun after hafter => ?_⟩
      · simpa only [Storage.memory_write] using h.memories id
      · cases hafter
        exact (h.writers w writer hwriter).write s.storage bytes
    · exact h
  | flush w =>
    rw [Access.step]
    split
    · rename_i writer hwriter
      exact ⟨Storage.sound_commit h.memories (h.writers w writer hwriter), h.writers⟩
    · exact h
  | close w =>
    rw [Access.step]
    split
    · rename_i writer hwriter
      exact ⟨Storage.sound_commit h.memories (h.writers w writer hwriter), h.replace w (by simp)⟩
    · exact h
  | delete path =>
    rw [Access.step]
    split
    · rename_i storage hdelete
      exact ⟨Storage.sound_of_delete h.memories hdelete, h.writers⟩
    · exact h
  | list path =>
    rw [Access.step]
    split <;> exact h
  | wait now => exact ⟨h.memories, h.writers⟩

/-- A run leads from what can be reached to what can be reached. -/
theorem Reachable.run {s : Access} (h : Reachable s) (top : Store) (requests : List Request) :
    Reachable (run top s requests).1 := by
  induction requests with
  | nil => exact h
  | cons request earlier ih => exact .step top request ih

/-- Whatever is asked, all memories stay sound. -/
theorem Reachable.sound {s : Access} (h : Reachable s) : s.Sound := by
  induction h with
  | fresh count disk now => exact sound_fresh count disk now
  | step top request _ ih => exact ih.step top request

end Access
end Sandbox
