import Sandbox.Proofs.Store.Route
import Sandbox.Proofs.Store.History

/-!
# Runs stay on their routes

A request goes to the store at the end of the route of its path, or of the path with which its writer
has been opened. A writer outlives the request that opens it, so every open writer is tied to the store
at the end of the route on which it has been opened. This store is not a read-only one, and so a memory
that stands only below read-only stores keeps what it holds in every run.
-/

namespace Sandbox

/-- A writer writes to this store. -/
def Storage.Writer.WritesTo : Storage.Writer → Store → Prop
  | .bytes id .., stop => stop = .memory id
  | .node .., stop => ∃ root, stop = .directory root

namespace DirectoryStore

theorem resolve_ne_readOnly (root : Path) (path : String) :
    resolve root path ≠ .error .readOnly := by
  intro h
  rw [resolve] at h
  split at h <;> cases h

theorem bind_resolve_ne_readOnly {α : Type} (root : Path) (path : String)
    {next : Path → Except Store.Error α} (h : ∀ full, next full ≠ .error .readOnly) :
    resolve root path >>= next ≠ .error .readOnly := by
  cases hresolve : resolve root path with
  | error e =>
    intro heq
    cases heq
    exact resolve_ne_readOnly root path hresolve
  | ok full => exact h full

/-- Whatever is done at a place on the disk, the answer is never that the place may only be read. -/
theorem atPath_ne_readOnly {α : Type} (root : Path) (path : String)
    (act : String → Except Disk.Refusal α) : atPath root path act ≠ .error .readOnly := by
  refine bind_resolve_ne_readOnly root path fun full h => ?_
  split at h
  · cases h
  · rename_i cause _
    cases cause <;> cases h

theorem delete_ne_readOnly (d : Disk) (now : Timestamp) (root : Path) (path : String) :
    delete d now root path ≠ .error .readOnly := by
  refine bind_resolve_ne_readOnly root path fun full h => ?_
  split at h
  · cases h
  · exact atPath_ne_readOnly root path _ h

end DirectoryStore

namespace Storage

variable {s : Storage} {stop : Store} {path left : String} {writer : Writer}

theorem Writer.WritesTo.write (h : writer.WritesTo stop) (s : Storage) (bytes : ByteArray) :
    (s.write writer bytes).2.WritesTo stop := by
  cases writer with
  | bytes => exact h
  | node =>
    rw [Storage.write]
    split <;> exact h

/-- The writer of a path writes to the store at the end of the route. -/
theorem writesTo_of_openWrite {top : Store} (hroute : top.Routes path stop left)
    (h : s.openWrite top path = .ok writer) : writer.WritesTo stop := by
  rw [openWrite_of_routes hroute] at h
  rcases hroute.stop_cases with ⟨id, rfl⟩ | ⟨root, rfl⟩ | ⟨inner, rfl⟩
  · rw [openWrite_memory] at h
    split at h
    · cases h
    · split at h
      · cases h
        exact rfl
      · cases h
  · rw [openWrite_directory] at h
    cases hopen : DirectoryStore.openWrite s.disk root left with
    | error e =>
      rw [hopen] at h
      cases h
    | ok number =>
      rw [hopen] at h
      cases h
      exact ⟨root, rfl⟩
  · rw [openWrite_readOnly] at h
    cases h

/-- Opening for writing is refused as read-only at the end of a route that ends at a read-only store,
and nowhere else. -/
theorem openWrite_eq_readOnly_iff {top : Store} (hroute : top.Routes path stop left) :
    s.openWrite top path = .error .readOnly ↔ ∃ inner, stop = .readOnly inner := by
  rw [openWrite_of_routes hroute]
  rcases hroute.stop_cases with ⟨id, rfl⟩ | ⟨root, rfl⟩ | ⟨inner, rfl⟩
  · have hne : s.openWrite (.memory id) left ≠ .error .readOnly := by
      rw [openWrite_memory]
      split
      · simp
      · split <;> simp
    simp [hne]
  · have hne : s.openWrite (.directory root) left ≠ .error .readOnly := by
      rw [openWrite_directory]
      intro h
      cases hopen : DirectoryStore.openWrite s.disk root left with
      | error e =>
        rw [hopen] at h
        cases h
        exact DirectoryStore.atPath_ne_readOnly root left _ hopen
      | ok number =>
        rw [hopen] at h
        cases h
    simp [hne]
  · simp [openWrite_readOnly]

/-- Taking a file away is refused as read-only at the end of a route that ends at a read-only store,
and nowhere else. -/
theorem delete_eq_readOnly_iff {top : Store} (hroute : top.Routes path stop left) :
    s.delete top path = .error .readOnly ↔ ∃ inner, stop = .readOnly inner := by
  rw [delete_of_routes hroute]
  rcases hroute.stop_cases with ⟨id, rfl⟩ | ⟨root, rfl⟩ | ⟨inner, rfl⟩
  · have hne : s.delete (.memory id) left ≠ .error .readOnly := by
      rw [delete_memory]
      split
      · simp
      · split <;> simp
    simp [hne]
  · have hne : s.delete (.directory root) left ≠ .error .readOnly := by
      rw [delete_directory]
      intro h
      cases hdelete : DirectoryStore.delete s.disk s.now root left with
      | error e =>
        rw [hdelete] at h
        cases h
        exact DirectoryStore.delete_ne_readOnly s.disk s.now root left hdelete
      | ok disk =>
        rw [hdelete] at h
        cases h
    simp [hne]
  · simp [delete_readOnly]

/-! ## What stays as it is -/

/-- Two storages hold the same, save for what is in this store. -/
structure AgreesBut (stop : Store) (s after : Storage) : Prop where
  memory : ∀ id, stop ≠ .memory id → after.memory id = s.memory id
  disk : (∀ root, stop ≠ .directory root) → after.disk = s.disk

theorem AgreesBut.refl (stop : Store) (s : Storage) : AgreesBut stop s s :=
  ⟨fun _ _ => rfl, fun _ => rfl⟩

/-- Writing changes nothing but the store of the writer. -/
theorem agreesBut_write (h : writer.WritesTo stop) (s : Storage) (bytes : ByteArray) :
    AgreesBut stop s (s.write writer bytes).1 := by
  refine ⟨fun id _ => memory_write s writer bytes id, fun hstop => ?_⟩
  cases writer with
  | bytes => rfl
  | node =>
    obtain ⟨root, rfl⟩ := h
    exact absurd rfl (hstop root)

/-- Committing changes nothing but the store of the writer. -/
theorem agreesBut_commit (h : writer.WritesTo stop) (s : Storage) :
    AgreesBut stop s (s.commit writer) := by
  cases writer with
  | bytes id key buffer position =>
    cases h
    refine ⟨fun other hother => ?_, fun _ => rfl⟩
    rw [commit, memory_setMemory, if_neg fun hid => hother (by rw [hid.1])]
  | node => exact .refl stop s

/-- Taking a file away changes nothing but the store at the end of the route. -/
theorem agreesBut_delete {top : Store} {after : Storage} (hroute : top.Routes path stop left)
    (h : s.delete top path = .ok after) : AgreesBut stop s after := by
  rw [delete_of_routes hroute] at h
  rcases hroute.stop_cases with ⟨id, rfl⟩ | ⟨root, rfl⟩ | ⟨inner, rfl⟩
  · rw [delete_memory] at h
    split at h
    · cases h
    · split at h
      · cases h
        refine ⟨fun other hother => ?_, fun _ => rfl⟩
        rw [memory_setMemory, if_neg fun hid => hother (by rw [hid.1])]
      · cases h
  · rw [delete_directory] at h
    cases hdelete : DirectoryStore.delete s.disk s.now root left with
    | error e =>
      rw [hdelete] at h
      cases h
    | ok disk =>
      rw [hdelete] at h
      cases h
      exact ⟨fun _ _ => rfl, fun hstop => absurd rfl (hstop root)⟩
  · rw [delete_readOnly] at h
    cases h

end Storage

namespace Access

variable {top stop : Store} {s : Access} {past : History} {request : Request}

/-- The request goes through a store, and does not put a file into a memory from outside. -/
def Request.IsThrough : Request → Prop
  | .insert .. => False
  | _ => True

instance (request : Request) : Decidable request.IsThrough :=
  match request with
  | .insert .. => isFalse id
  | .openRead _ | .read .. | .openWrite _ | .write .. | .flush _ | .close _ | .delete _ | .list _
  | .wait _ => isTrue trivial

/-- The path that a request is about: its own one, or the one with which its reader or writer has been
opened. -/
def Request.path? (past : History) : Request → Option String
  | .openRead path | .openWrite path | .delete path | .list path => some path
  | .read r _ => (readerOrigin r past).map (·.1)
  | .write w _ | .flush w | .close w => (writerOrigin w past).map (·.1)
  | .insert .. | .wait _ => none

/-! ## Writers and their routes -/

/-- A writer has been opened with this path, and writes to the store at the end of its route. -/
def IsTied (top : Store) (past : History) (w : Nat) (writer : Storage.Writer) : Prop :=
  ∃ path before stop left, writerOrigin w past = some (path, before) ∧
    top.Routes path stop left ∧ writer.WritesTo stop

/-- Every open writer is tied to the store at the end of the route on which it has been opened. -/
def Tied (top : Store) (s : Access) (past : History) : Prop :=
  ∀ w writer, s.writers[w]? = some (some writer) → IsTied top past w writer

/-- A step that opens no writer of this number does not touch where the writer comes from. -/
theorem writerOrigin_cons {w : Nat} {answer : Answer}
    (h : ∀ path, request = .openWrite path → answer ≠ .opened w) :
    writerOrigin w ((request, answer) :: past) = writerOrigin w past := by
  cases request with
  | openWrite path =>
    cases answer with
    | opened number =>
      have hne : number ≠ w := fun heq => h path rfl (by rw [heq])
      rw [writerOrigin, if_neg hne]
    | _ => rfl
  | _ => cases answer <;> rfl

theorem IsTied.cons {w : Nat} {writer : Storage.Writer} (h : IsTied top past w writer)
    {answer : Answer} (hanswer : ∀ path, request = .openWrite path → answer ≠ .opened w) :
    IsTied top ((request, answer) :: past) w writer := by
  obtain ⟨path, before, stop, left, horigin, hroute, hwrites⟩ := h
  exact ⟨path, before, stop, left, (writerOrigin_cons hanswer).trans horigin, hroute, hwrites⟩

/-- At the end of the route of its path an open writer writes. -/
theorem IsTied.writesTo {w : Nat} {writer : Storage.Writer} (h : IsTied top past w writer)
    {path left : String} (hpath : (writerOrigin w past).map (·.1) = some path)
    (hroute : top.Routes path stop left) : writer.WritesTo stop := by
  obtain ⟨path', before, stop', left', horigin, hroute', hwrites⟩ := h
  rw [horigin] at hpath
  cases hpath
  obtain ⟨rfl, -⟩ := hroute.unique hroute'
  exact hwrites

/-- A step that opens no writer keeps all writers tied if it only takes writers away. -/
theorem Tied.cons {after : Access} (h : Tied top s past)
    (hwriters : ∀ (w : Nat) (writer : Storage.Writer), after.writers[w]? = some (some writer) →
      s.writers[w]? = some (some writer))
    {answer : Answer} (hanswer : ∀ path w, request = .openWrite path → answer ≠ .opened w) :
    Tied top after ((request, answer) :: past) := by
  intro w writer hget
  have hbefore := h w writer (hwriters w writer hget)
  exact hbefore.cons fun path => hanswer path w

/-- A writer is tied to the store at the end of the route on which it is opened. -/
theorem Tied.openWrite (h : Tied top s past) {path : String} {writer : Storage.Writer}
    (hopen : s.storage.openWrite top path = .ok writer) :
    Tied top { s with writers := s.writers.push (some writer) }
      ((.openWrite path, .opened s.writers.size) :: past) := by
  intro w other hget
  simp only [Array.getElem?_push] at hget
  split at hget
  case isTrue hw =>
    subst hw
    cases hget
    obtain ⟨stop, left, hroute⟩ := top.exists_routes path
    have horigin : writerOrigin s.writers.size
        ((.openWrite path, .opened s.writers.size) :: past) = some (path, past) := by
      rw [writerOrigin, if_pos rfl]
    exact ⟨path, past, stop, left, horigin, hroute, Storage.writesTo_of_openWrite hroute hopen⟩
  case isFalse hw =>
    refine (h w other hget).cons fun _ _ heq => hw ?_
    cases heq
    rfl

/-- What a writer becomes with what has been written is tied where the writer is. -/
theorem Tied.write (h : Tied top s past) {w : Nat} {writer : Storage.Writer}
    (hwriter : s.writers[w]? = some (some writer)) (bytes : ByteArray) :
    Tied top { s with
        storage := (s.storage.write writer bytes).1
        writers := s.writers.setIfInBounds w (some (s.storage.write writer bytes).2) }
      ((.write w bytes, .done) :: past) := by
  intro v other hget
  simp only [Array.getElem?_setIfInBounds] at hget
  split at hget
  case isTrue hv =>
    subst hv
    split at hget
    · cases hget
      obtain ⟨path, before, stop, left, horigin, hroute, hwrites⟩ := h w writer hwriter
      exact ⟨path, before, stop, left, horigin, hroute, hwrites.write s.storage bytes⟩
    · cases hget
  case isFalse => exact (h v other hget).cons (by simp)

/-- Every request keeps all writers tied. -/
theorem Tied.step (h : Tied top s past) (request : Request) :
    Tied top (s.step top request).1 ((request, (s.step top request).2) :: past) := by
  cases request with
  | openWrite path =>
    rw [Access.step]
    split
    case h_1 hopen => exact h.openWrite hopen
    case h_2 => exact h.cons (fun _ _ hget => hget) (by simp)
  | write w bytes =>
    rw [Access.step]
    split
    case h_1 hwriter => exact h.write hwriter bytes
    case h_2 => exact h.cons (fun _ _ hget => hget) (by simp)
  | close w =>
    rw [Access.step]
    split
    · refine h.cons (fun v writer hget => ?_) (by simp)
      simp only [Array.getElem?_setIfInBounds] at hget
      split at hget
      · split at hget <;> cases hget
      · exact hget
    · exact h.cons (fun _ _ hget => hget) (by simp)
  | _ =>
    -- none of the others touches the writers
    refine h.cons (fun v writer hget => ?_) (by simp)
    simp only [Access.step] at hget
    repeat' split at hget
    all_goals exact hget

/-- At the start no writer is open. -/
theorem tied_start (top : Store) (files : Storage) : Tied top { storage := files } [] :=
  fun _ _ hget => by simp at hget

/-- In every run all writers stay tied. -/
theorem run_tied (top : Store) (files : Storage) (requests : List Request) :
    let result := run top { storage := files } requests
    Tied top result.1 result.2 := by
  induction requests with
  | nil => exact tied_start top files
  | cons request earlier ih => exact Tied.step ih request

/-! ## One step -/

/-- A step stays on the route of its path. -/
structure Stays (top : Store) (s : Access) (past : History) (request : Request) : Prop where
  /-- Nothing changes but in the store at the end of the route. -/
  frame : ∀ path stop left, request.path? past = some path → top.Routes path stop left →
    Storage.AgreesBut stop s.storage (s.step top request).1.storage
  /-- Without a path nothing changes. -/
  still : request.path? past = none → ∀ stop,
    Storage.AgreesBut stop s.storage (s.step top request).1.storage
  /-- Who opens a file for writing or takes one away is told that it may only be read exactly if the
  route of the path ends at a read-only store. -/
  readOnly : ∀ path, request = .openWrite path ∨ request = .delete path →
    ((s.step top request).2 = .refused .readOnly ↔
      ∃ inner left, top.Routes path (.readOnly inner) left)
  /-- A step that is refused changes nothing. -/
  refused : ∀ error, (s.step top request).2 = .refused error → (s.step top request).1 = s

/-- An open writer writes to the store to which its path leads. -/
theorem Tied.writesTo (h : Tied top s past) {w : Nat} {writer : Storage.Writer}
    (hopen : s.writers[w]? = some (some writer))
    (hpath : ∀ path, (writerOrigin w past).map (·.1) = some path →
      ∃ left, top.Routes path stop left) : writer.WritesTo stop := by
  have htied := h w writer hopen
  obtain ⟨path, before, _, _, horigin, -⟩ := id htied
  have hmap : (writerOrigin w past).map (·.1) = some path := by rw [horigin]; rfl
  obtain ⟨left, hroute⟩ := hpath path hmap
  exact htied.writesTo hmap hroute

/-- A request changes nothing but in the store to which its path leads. -/
theorem Tied.agreesBut (h : Tied top s past) (hthrough : request.IsThrough) (stop : Store)
    (hpath : ∀ path, request.path? past = some path → ∃ left, top.Routes path stop left) :
    Storage.AgreesBut stop s.storage (s.step top request).1.storage := by
  cases request with
  | insert => exact hthrough.elim
  | write w bytes =>
    rw [Access.step]
    split
    · rename_i writer hopen
      exact Storage.agreesBut_write (h.writesTo hopen hpath) s.storage bytes
    · exact .refl stop s.storage
  | flush w =>
    rw [Access.step]
    split
    · rename_i writer hopen
      exact Storage.agreesBut_commit (h.writesTo hopen hpath) s.storage
    · exact .refl stop s.storage
  | close w =>
    rw [Access.step]
    split
    · rename_i writer hopen
      exact Storage.agreesBut_commit (h.writesTo hopen hpath) s.storage
    · exact .refl stop s.storage
  | delete path =>
    rw [Access.step]
    split
    · rename_i storage hdelete
      obtain ⟨left, hroute⟩ := hpath path rfl
      exact Storage.agreesBut_delete hroute hdelete
    · exact .refl stop s.storage
  | wait now => exact ⟨fun _ _ => rfl, fun _ => rfl⟩
  | _ =>
    -- none of the others touches the storage
    simp only [Access.step]
    repeat' split
    all_goals exact .refl stop s.storage

/-- What is refused changes nothing. -/
theorem step_refused {error : Store.Error} (h : (s.step top request).2 = .refused error) :
    (s.step top request).1 = s := by
  revert h
  cases request
  all_goals
    simp only [Access.step]
    repeat' split
    all_goals
      intro h
      first
        | rfl
        | cases h

/-- A request through the store stays on the route of its path. -/
theorem Tied.stays (h : Tied top s past) (hthrough : request.IsThrough) :
    Stays top s past request where
  frame := by
    intro path stop left hpath hroute
    refine h.agreesBut hthrough stop fun path' hpath' => ?_
    rw [hpath] at hpath'
    cases hpath'
    exact ⟨left, hroute⟩
  still := by
    intro hnone stop
    refine h.agreesBut hthrough stop fun path hpath => ?_
    rw [hnone] at hpath
    cases hpath
  readOnly := by
    intro path hrequest
    obtain ⟨stop, left, hroute⟩ := top.exists_routes path
    have hstop : (∃ inner, stop = .readOnly inner) ↔
        ∃ inner left, top.Routes path (.readOnly inner) left := by
      constructor
      · rintro ⟨inner, rfl⟩
        exact ⟨inner, left, hroute⟩
      · rintro ⟨inner, left', hroute'⟩
        exact ⟨inner, (hroute.unique hroute').1⟩
    rw [← hstop]
    rcases hrequest with rfl | rfl
    · rw [← Storage.openWrite_eq_readOnly_iff (s := s.storage) hroute, Access.step]
      cases s.storage.openWrite top path <;> simp
    · rw [← Storage.delete_eq_readOnly_iff (s := s.storage) hroute, Access.step]
      cases s.storage.delete top path <;> simp
  refused := fun _ => step_refused

/-! ## Runs -/

/-- A memory that stands only below read-only stores is left as it is by every request. -/
theorem Tied.memory_eq (h : Tied top s past) (hthrough : request.IsThrough) {id : Nat}
    (hid : ¬top.Exposes id) : (s.step top request).1.storage.memory id = s.storage.memory id := by
  cases hpath : request.path? past with
  | none =>
    have hstill := (h.stays hthrough).still hpath (.directory ⟨true, []⟩)
    exact hstill.memory id (by simp)
  | some path =>
    obtain ⟨stop, left, hroute⟩ := top.exists_routes path
    have hframe := (h.stays hthrough).frame path stop left hpath hroute
    refine hframe.memory id fun hstop => hid ?_
    subst hstop
    exact hroute.exposes

/-- In a run through a store of any kind, with any files at the start, a memory that stands only below
read-only stores holds what it held at the start, and the next request stays on the route of its
path. -/
theorem run_isolated (top : Store) (files : Storage) (requests : List Request)
    (hrequests : ∀ request ∈ requests, request.IsThrough) :
    let result := run top { storage := files } requests
    (∀ id, ¬top.Exposes id → result.1.storage.memory id = files.memory id) ∧
      ∀ request, request.IsThrough → Stays top result.1 result.2 request := by
  refine ⟨fun id hid => ?_, fun request hthrough => (run_tied top files requests).stays hthrough⟩
  induction requests with
  | nil => rfl
  | cons request earlier ih =>
    obtain ⟨hthrough, hearlier⟩ := List.forall_mem_cons.mp hrequests
    have hstep := (run_tied top files earlier).memory_eq hthrough hid
    exact hstep.trans (ih hearlier)

/-- A library that may only be read stays as it is while a file beside it is written, and the writer
stays where its path has led. -/
theorem run_isolated_of_library :
    let top : Store := .router (.memory 0) [("lib", .readOnly (.memory 1))]
    let files : Storage :=
      { memories := #[⟨[(["a"], ⟨"old".toUTF8, .epoch⟩)]⟩, ⟨[(["b"], ⟨"kept".toUTF8, .epoch⟩)]⟩] }
    let requests : List Request :=
      [.delete "lib/b", .write 0 "new".toUTF8, .openWrite "lib/b", .openWrite "a"]
    let result := run top { storage := files } requests
    (∀ request ∈ requests, request.IsThrough) ∧ ¬top.Exposes 1 ∧
      result.1.storage.memory 1 = files.memory 1 ∧
      Request.path? result.2 (.flush 0) = some "a" ∧ Stays top result.1 result.2 (.flush 0) := by
  intro top files requests result
  have hrequests : ∀ request ∈ requests, request.IsThrough := by decide
  have hexposes : ¬(Store.router (.memory 0) [("lib", .readOnly (.memory 1))]).Exposes 1 := by
    intro h
    cases h with
    | base h => cases h
    | mount hm h =>
      obtain rfl := List.mem_singleton.mp hm
      cases h
  obtain ⟨hkept, hstays⟩ := run_isolated top files requests hrequests
  exact ⟨hrequests, hexposes, hkept 1 hexposes, by decide +kernel, hstays (.flush 0) trivial⟩

end Access
end Sandbox
