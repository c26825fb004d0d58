import Sandbox.Proofs.Store.History

/-!
# Memories do what their histories say

`Simulates` ties a state to the history that has led to it: the files of a memory to the bytes that
were committed, the buffer of each writer to what it has written, and each reader to the bytes that
its file had. Every step keeps this and gives the answer that a map would give, so both hold after
every run.
-/

namespace Sandbox.Access

open MemoryStore (names Canonical)

/-! ## States and their histories -/

/-- What a history says about the place of a writer of a memory. -/
inductive WriterState (id : Nat) (past : History) (w : Nat) : Option (Option Storage.Writer) → Prop
  | unknown : writerOrigin w past = none → written w past = .empty → isClosed w past = false →
      WriterState id past w none
  | closed : isClosed w past = true → WriterState id past w (some none)
  | ready {path : String} {before : History} {opened : ByteArray} :
      writerOrigin w past = some (path, before) → isClosed w past = false →
      content id (names path) before = some opened → Canonical (names path) →
      WriterState id past w (some (some (.bytes id (names path)
        (Disk.overwrite opened 0 (written w past)) (written w past).size)))

/-- What a history says about the place of a reader of a memory. -/
inductive ReaderState (id : Nat) (past : History) (r : Nat) : Option Storage.Reader → Prop
  | unknown : readerOrigin r past = none → yielded r past = .empty → ReaderState id past r none
  | ready {path : String} {before : History} {data : ByteArray} :
      readerOrigin r past = some (path, before) → content id (names path) before = some data →
      ReaderState id past r (some (.bytes data (yielded r past).size))

/-- The state is what the history of requests to one memory says. -/
structure Simulates (id : Nat) (s : Access) (past : History) : Prop where
  inside : id < s.storage.memories.size
  content_eq : ∀ key, (s.storage.memory id).bytes? key = content id key past
  writers : ∀ w : Nat, WriterState id past w s.writers[w]?
  readers : ∀ r : Nat, ReaderState id past r s.readers[r]?

section States

variable {id w r : Nat} {past : History} {event : Request × Answer}

/-- A step that is not about the writer changes nothing for it. -/
theorem WriterState.cons {place : Option (Option Storage.Writer)} (h : WriterState id past w place)
    (horigin : writerOrigin w (event :: past) = writerOrigin w past)
    (hwritten : written w (event :: past) = written w past)
    (hclosed : isClosed w (event :: past) = isClosed w past) :
    WriterState id (event :: past) w place := by
  cases h with
  | unknown hnone hempty hopen =>
    exact .unknown (horigin.trans hnone) (hwritten.trans hempty) (hclosed.trans hopen)
  | closed hcl => exact .closed (hclosed.trans hcl)
  | ready hsome hopen hopened hcanonical =>
    rw [← hwritten]
    exact .ready (horigin.trans hsome) (hclosed.trans hopen) hopened hcanonical

/-- A step that is not about the reader changes nothing for it. -/
theorem ReaderState.cons {place : Option Storage.Reader} (h : ReaderState id past r place)
    (horigin : readerOrigin r (event :: past) = readerOrigin r past)
    (hyielded : yielded r (event :: past) = yielded r past) :
    ReaderState id (event :: past) r place := by
  cases h with
  | unknown hnone hempty => exact .unknown (horigin.trans hnone) (hyielded.trans hempty)
  | ready hsome hdata =>
    rw [← hyielded]
    exact .ready (horigin.trans hsome) hdata

/-- A writer is open where its place holds a writer. -/
theorem WriterState.isOpen_eq {place : Option (Option Storage.Writer)}
    (h : WriterState id past w place) : isOpen w past = (place.getD none).isSome := by
  cases h with
  | unknown hnone => simp [isOpen, hnone]
  | closed hclosed => simp [isOpen, hclosed]
  | ready hsome hopen => simp [isOpen, hsome, hopen]

end States

namespace Simulates

variable {id : Nat} {s : Access} {past : History}

/-- At the start nothing is there. -/
theorem fresh {count : Nat} (hid : id < count) (disk : Disk) (now : Timestamp) :
    Simulates id (fresh count disk now) [] := by
  refine ⟨by simpa [Access.fresh] using hid, fun key => ?_, fun w => ?_, fun r => ?_⟩
  · simp [Access.fresh, Storage.memory, hid, MemoryStore.bytes?, MemoryStore.get?, content, contentBut]
  · simpa [Access.fresh] using WriterState.unknown rfl rfl rfl
  · simpa [Access.fresh] using ReaderState.unknown rfl rfl

/-- A request that is not answered with success leaves everything. -/
theorem failed (h : Simulates id s past) (request : Request) {answer : Answer}
    (hdone : answer ≠ .done) (hopened : ∀ number, answer ≠ .opened number)
    (hbytes : ∀ chunk, answer ≠ .bytes chunk) : Simulates id s ((request, answer) :: past) := by
  refine ⟨h.inside, fun key => ?_, fun w => ?_, fun r => ?_⟩
  · rw [h.content_eq, content_of_ne_done hdone]
  · refine (h.writers w).cons ?_ ?_ ?_
    all_goals cases request <;> cases answer <;> simp_all [writerOrigin, written, isClosed]
  · refine (h.readers r).cons ?_ ?_
    all_goals cases request <;> cases answer <;> simp_all [readerOrigin, yielded]

/-- A refusal leaves everything. -/
theorem refused (h : Simulates id s past) (request : Request) (error : Store.Error) :
    Simulates id s ((request, .refused error) :: past) :=
  h.failed request (by simp) (by simp) (by simp)

/-- A request to something that is not there leaves everything. -/
theorem unknown (h : Simulates id s past) (request : Request) :
    Simulates id s ((request, .unknown) :: past) :=
  h.failed request (by simp) (by simp) (by simp)

/-- A file is put into a memory. -/
theorem insert (h : Simulates id s past) {number : Nat} (hnumber : number < s.storage.memories.size)
    (path : String) (data : ByteArray) (modified : Timestamp) :
    let m := (s.storage.memory number).set (names path) ⟨data, modified⟩
    Simulates id { s with storage := s.storage.setMemory number m }
      ((.insert number path data, .done) :: past) := by
  refine ⟨by simpa [Storage.setMemory] using h.inside, fun key => ?_, fun w => ?_, fun r => ?_⟩
  · rw [content_insert, Storage.memory_setMemory]
    by_cases hid : id = number
    · subst hid
      rw [if_pos ⟨rfl, hnumber⟩, MemoryStore.bytes?_set, h.content_eq]
      simp only [true_and, eq_comm]
    · rw [if_neg (by simp [hid]), if_neg (by simp [Ne.symm hid]), h.content_eq]
  · exact (h.writers w).cons rfl rfl rfl
  · exact (h.readers r).cons rfl rfl

/-- A file is taken away. -/
theorem delete (h : Simulates id s past) (path : String) :
    let m := (s.storage.memory id).erase (names path)
    Simulates id { s with storage := s.storage.setMemory id m } ((.delete path, .done) :: past) := by
  refine ⟨by simpa [Storage.setMemory] using h.inside, fun key => ?_, fun w => ?_, fun r => ?_⟩
  · rw [content_delete, Storage.memory_setMemory, if_pos ⟨rfl, h.inside⟩,
      MemoryStore.bytes?_erase, h.content_eq]
    simp only [eq_comm]
  · exact (h.writers w).cons rfl rfl rfl
  · exact (h.readers r).cons rfl rfl

/-- A file is opened for reading. -/
theorem openRead (h : Simulates id s past) {path : String} {data : ByteArray}
    (hdata : content id (names path) past = some data) :
    Simulates id { s with readers := s.readers.push (.bytes data 0) }
      ((.openRead path, .opened s.readers.size) :: past) := by
  refine ⟨h.inside, fun key => ?_, fun w => ?_, fun r => ?_⟩
  · rw [h.content_eq, content_of_ne_done (by simp)]
  · exact (h.writers w).cons rfl rfl rfl
  · have hold := h.readers r
    rw [Array.getElem?_push]
    split
    case isTrue heq =>
      subst heq
      rw [Array.getElem?_size] at hold
      cases hold with
      | unknown hnone hempty =>
        have hyielded : yielded s.readers.size
            ((.openRead path, .opened s.readers.size) :: past) = .empty := hempty
        have hready := @ReaderState.ready id ((.openRead path, .opened s.readers.size) :: past)
          s.readers.size path past data (by simp [readerOrigin]) hdata
        simpa [hyielded] using hready
    case isFalse hne =>
      exact hold.cons (by simp [readerOrigin, Ne.symm hne]) rfl

/-- A reader goes on. -/
theorem read (h : Simulates id s past) {r count : Nat} {reader after : Storage.Reader}
    {chunk : ByteArray} (hreader : s.readers[r]? = some reader)
    (hread : s.storage.readSome reader count = .ok (chunk, after)) :
    Simulates id { s with readers := s.readers.setIfInBounds r after }
      ((.read r count, .bytes chunk) :: past) := by
  obtain ⟨hr, -⟩ := Array.getElem?_eq_some_iff.mp hreader
  refine ⟨h.inside, fun key => ?_, fun w => ?_, fun other => ?_⟩
  · rw [h.content_eq, content_of_ne_done (by simp)]
  · exact (h.writers w).cons rfl rfl rfl
  · have hold := h.readers other
    rw [Array.getElem?_setIfInBounds]
    by_cases hother : r = other
    · subst hother
      rw [if_pos rfl, if_pos hr]
      rw [hreader] at hold
      cases hold with
      | @ready path before data horigin hdata =>
        simp only [Storage.readSome, Storage.readerData, bind, Except.bind, pure, Except.pure,
          Except.ok.injEq, Prod.mk.injEq] at hread
        obtain ⟨hchunk, rfl⟩ := hread
        have hready := @ReaderState.ready id ((.read r count, .bytes chunk) :: past) r path before
          data horigin hdata
        simpa [yielded, hchunk, ByteArray.size_append] using hready
    · rw [if_neg hother]
      exact hold.cons rfl (by simp [yielded, hother])

/-- A file is opened for writing. -/
theorem openWrite (h : Simulates id s past) {path : String} {data : ByteArray}
    (hdata : content id (names path) past = some data) (hcanonical : Canonical (names path)) :
    Simulates id { s with writers := s.writers.push (some (.bytes id (names path) data 0)) }
      ((.openWrite path, .opened s.writers.size) :: past) := by
  refine ⟨h.inside, fun key => ?_, fun w => ?_, fun r => ?_⟩
  · rw [h.content_eq, content_of_ne_done (by simp)]
  · have hold := h.writers w
    rw [Array.getElem?_push]
    split
    case isTrue heq =>
      subst heq
      rw [Array.getElem?_size] at hold
      cases hold with
      | unknown hnone hempty hclosed =>
        have hwritten : written s.writers.size
            ((.openWrite path, .opened s.writers.size) :: past) = .empty := hempty
        have hready := @WriterState.ready id
          ((.openWrite path, .opened s.writers.size) :: past) s.writers.size path past data
          (by simp [writerOrigin]) hclosed hdata hcanonical
        simpa [hwritten, Disk.overwrite_empty] using hready
    case isFalse hne =>
      exact hold.cons (by simp [writerOrigin, Ne.symm hne]) rfl rfl
  · exact (h.readers r).cons rfl rfl

/-- A writer writes over the bytes that the file had when it was opened. -/
theorem write (h : Simulates id s past) {w : Nat} {writer : Storage.Writer} (bytes : ByteArray)
    (hwriter : s.writers[w]? = some (some writer)) :
    let after := s.storage.write writer bytes
    Simulates id { s with storage := after.1, writers := s.writers.setIfInBounds w (some after.2) }
      ((.write w bytes, .done) :: past) := by
  obtain ⟨hw, -⟩ := Array.getElem?_eq_some_iff.mp hwriter
  have hplace := h.writers w
  rw [hwriter] at hplace
  cases hplace with
  | @ready path before opened horigin hclosed hopened hcanonical =>
    refine ⟨h.inside, fun key => ?_, fun other => ?_, fun r => ?_⟩
    · change (s.storage.memory id).bytes? key = _
      rw [h.content_eq, content, content, contentBut]
      all_goals simp
    · simp only [Storage.write, Array.getElem?_setIfInBounds]
      by_cases hother : w = other
      · subst hother
        rw [if_pos rfl, if_pos hw]
        have hready := @WriterState.ready id ((.write w bytes, .done) :: past) w path before opened
          horigin hclosed hopened hcanonical
        simpa [written, Disk.overwrite_overwrite, ByteArray.size_append] using hready
      · rw [if_neg hother]
        exact (h.writers other).cons rfl (by simp [written, hother]) rfl
    · exact (h.readers r).cons rfl rfl

/-- A writer commits the bytes that the file had, with all that it has written over them. -/
theorem content_eq_of_commit (h : Simulates id s past) {request : Request} {w : Nat}
    (hrequest : request = .flush w ∨ request = .close w) {writer : Storage.Writer}
    (hwriter : s.writers[w]? = some (some writer)) (key : List String) :
    ((s.storage.commit writer).memory id).bytes? key =
      content id key ((request, .done) :: past) := by
  have hplace := h.writers w
  rw [hwriter] at hplace
  cases hplace with
  | @ready path before opened horigin hclosed hopened hcanonical =>
    rw [content_commit hrequest horigin hopened, Storage.commit, Storage.memory_setMemory,
      if_pos ⟨rfl, h.inside⟩, MemoryStore.bytes?_set, h.content_eq]
    simp only [eq_comm]

/-- A writer commits and stays open. -/
theorem flush (h : Simulates id s past) {w : Nat} {writer : Storage.Writer}
    (hwriter : s.writers[w]? = some (some writer)) :
    Simulates id { s with storage := s.storage.commit writer } ((.flush w, .done) :: past) := by
  refine ⟨?_, h.content_eq_of_commit (.inl rfl) hwriter, fun v => ?_, fun r => ?_⟩
  · have hinside := h.inside
    cases writer <;> simpa [Storage.commit, Storage.setMemory] using hinside
  · exact (h.writers v).cons rfl rfl rfl
  · exact (h.readers r).cons rfl rfl

/-- A writer commits and is closed. -/
theorem close (h : Simulates id s past) {w : Nat} {writer : Storage.Writer}
    (hwriter : s.writers[w]? = some (some writer)) :
    Simulates id
      { s with storage := s.storage.commit writer, writers := s.writers.setIfInBounds w none }
      ((.close w, .done) :: past) := by
  obtain ⟨hw, -⟩ := Array.getElem?_eq_some_iff.mp hwriter
  refine ⟨?_, h.content_eq_of_commit (.inr rfl) hwriter, fun v => ?_, fun r => ?_⟩
  · have hinside := h.inside
    cases writer <;> simpa [Storage.commit, Storage.setMemory] using hinside
  · simp only [Array.getElem?_setIfInBounds]
    by_cases hv : w = v
    · subst hv
      rw [if_pos rfl, if_pos hw]
      exact .closed (by simp [isClosed])
    · rw [if_neg hv]
      exact (h.writers v).cons rfl rfl (by simp [isClosed, hv])
  · exact (h.readers r).cons rfl rfl

end Simulates

section Steps

variable {id : Nat} {s : Access} {past : History}

/-- The next reader has a new number. -/
theorem Simulates.readerOrigin_size (h : Simulates id s past) :
    readerOrigin s.readers.size past = none := by
  have hplace := h.readers s.readers.size
  rw [Array.getElem?_size] at hplace
  cases hplace with
  | unknown hnone => exact hnone

/-- The next writer has a new number. -/
theorem Simulates.writerOrigin_size (h : Simulates id s past) :
    writerOrigin s.writers.size past = none := by
  have hplace := h.writers s.writers.size
  rw [Array.getElem?_size] at hplace
  cases hplace with
  | unknown hnone => exact hnone

/-- The state after a request and the answer to it are those that the history calls for. -/
def Simulates.Goes (id : Nat) (s : Access) (past : History) (request : Request) : Prop :=
  Simulates id (s.step (.memory id) request).1
      ((request, (s.step (.memory id) request).2) :: past) ∧
    Fits id past request (s.step (.memory id) request).2

/-- A request for what a path addresses is refused for the path, refused as there is no such file, or
answered with what the file has. -/
theorem Simulates.path_cases (h : Simulates id s past) {α : Type} {path : String} {bad : Prop}
    [Decidable bad] {found : ByteArray → α} {result : Except Store.Error α}
    (hresult : result = if bad then .error (.invalidPath path)
      else match (s.storage.memory id).bytes? (names path) with
        | some data => .ok (found data)
        | none => .error (.notFound path)) :
    (bad ∧ result = .error (.invalidPath path)) ∨
      (¬bad ∧ content id (names path) past = none ∧ result = .error (.notFound path)) ∨
      ∃ data, ¬bad ∧ content id (names path) past = some data ∧ result = .ok (found data) := by
  rw [h.content_eq] at hresult
  by_cases hbad : bad
  · exact .inl ⟨hbad, by rw [hresult, if_pos hbad]⟩
  · rw [if_neg hbad] at hresult
    cases hdata : content id (names path) past with
    | none => exact .inr (.inl ⟨hbad, rfl, by rw [hresult, hdata]⟩)
    | some data => exact .inr (.inr ⟨data, hbad, rfl, by rw [hresult, hdata]⟩)

theorem Simulates.step_insert (h : Simulates id s past) (number : Nat) (path : String)
    (data : ByteArray) : Goes id s past (.insert number path data) := by
  rw [Goes, Access.step]
  by_cases hnumber : number < s.storage.memories.size
  · rw [if_pos hnumber, Storage.insert_eq]
    by_cases hnames : ".." ∈ names path ∨ names path = []
    · rw [if_pos hnames]
      exact ⟨h.refused _ _, fun _ => (if_pos hnames).symm⟩
    · rw [if_neg hnames]
      exact ⟨h.insert hnumber path data s.storage.now, fun _ => (if_neg hnames).symm⟩
  · rw [if_neg hnumber]
    exact ⟨h.unknown _, fun heq => absurd (heq ▸ h.inside) hnumber⟩

theorem Simulates.step_openRead (h : Simulates id s past) (path : String) :
    Goes id s past (.openRead path) := by
  rw [Goes, Access.step, Fits]
  rcases h.path_cases (Storage.openRead_memory s.storage id path) with
    ⟨hdots, hopen⟩ | ⟨hdots, hdata, hopen⟩ | ⟨data, hdots, hdata, hopen⟩
  · rw [hopen, if_pos hdots]
    exact ⟨h.refused _ _, rfl⟩
  · rw [hopen, if_neg hdots, hdata]
    exact ⟨h.refused _ _, rfl⟩
  · rw [hopen, if_neg hdots, hdata]
    exact ⟨h.openRead hdata, _, rfl, h.readerOrigin_size⟩

theorem Simulates.step_read (h : Simulates id s past) (r count : Nat) :
    Goes id s past (.read r count) := by
  rw [Goes, Access.step, Fits]
  have hplace := h.readers r
  cases hreader : s.readers[r]? with
  | none =>
    rw [hreader] at hplace
    cases hplace with
    | unknown hnone =>
      simp only [hnone]
      exact ⟨h.unknown _, trivial⟩
  | some reader =>
    cases hread : s.storage.readSome reader count with
    | error cause =>
      rw [hreader] at hplace
      cases hplace with
      | ready => cases hread
    | ok result =>
      obtain ⟨chunk, after⟩ := result
      have hnext := h.read hreader hread
      rw [hreader] at hplace
      cases hplace with
      | ready horigin hdata =>
        cases hread
        simp only [horigin]
        exact ⟨hnext, _, hdata, rfl⟩

theorem Simulates.step_openWrite (h : Simulates id s past) (path : String) :
    Goes id s past (.openWrite path) := by
  rw [Goes, Access.step, Fits]
  rcases h.path_cases (Storage.openWrite_memory s.storage id path) with
    ⟨hnames, hopen⟩ | ⟨hnames, hdata, hopen⟩ | ⟨data, hnames, hdata, hopen⟩
  · rw [hopen, if_pos hnames]
    exact ⟨h.refused _ _, rfl⟩
  · rw [hopen, if_neg hnames, hdata]
    exact ⟨h.refused _ _, rfl⟩
  · obtain ⟨hdots, hne⟩ := not_or.mp hnames
    have hcanonical := MemoryStore.canonical_names hdots hne
    rw [hopen, if_neg hnames, hdata]
    exact ⟨h.openWrite hdata hcanonical, _, rfl, h.writerOrigin_size⟩

theorem Simulates.step_delete (h : Simulates id s past) (path : String) :
    Goes id s past (.delete path) := by
  rw [Goes, Access.step, Fits]
  rcases h.path_cases (Storage.delete_memory s.storage id path) with
    ⟨hdots, hdelete⟩ | ⟨hdots, hdata, hdelete⟩ | ⟨data, hdots, hdata, hdelete⟩
  · rw [hdelete, if_pos hdots]
    exact ⟨h.refused _ _, rfl⟩
  · rw [hdelete, if_neg hdots, hdata]
    exact ⟨h.refused _ _, rfl⟩
  · rw [hdelete, if_neg hdots, hdata]
    exact ⟨h.delete path, rfl⟩

/-- A request to a writer goes to an open one, or is not understood. -/
theorem Simulates.writer_cases (h : Simulates id s past) (w : Nat) :
    (∃ writer, s.writers[w]? = some (some writer) ∧ isOpen w past = true) ∨
      (∀ writer, s.writers[w]? ≠ some (some writer)) ∧ isOpen w past = false := by
  have hopen := (h.writers w).isOpen_eq
  cases hplace : s.writers[w]? with
  | none => exact .inr ⟨by simp, by simp [hopen, hplace]⟩
  | some place =>
    cases place with
    | none => exact .inr ⟨by simp, by simp [hopen, hplace]⟩
    | some writer => exact .inl ⟨writer, rfl, by simp [hopen, hplace]⟩

theorem Simulates.step_writer (h : Simulates id s past) {w : Nat} {request : Request}
    (hrequest : (∃ bytes, request = .write w bytes) ∨ request = .flush w ∨ request = .close w) :
    Goes id s past request := by
  rcases h.writer_cases w with ⟨writer, hwriter, hopen⟩ | ⟨hnone, hopen⟩
  · obtain ⟨bytes, rfl⟩ | rfl | rfl := hrequest
    · have hnext := h.write bytes hwriter
      simp only [Goes, Access.step, Fits, hwriter, hopen]
      exact ⟨hnext, rfl⟩
    · have hnext := h.flush hwriter
      simp only [Goes, Access.step, Fits, hwriter, hopen]
      exact ⟨hnext, rfl⟩
    · have hnext := h.close hwriter
      simp only [Goes, Access.step, Fits, hwriter, hopen]
      exact ⟨hnext, rfl⟩
  · have hstep : s.step (.memory id) request = (s, .unknown) := by
      obtain ⟨bytes, rfl⟩ | rfl | rfl := hrequest
      all_goals
        rw [Access.step]
        split
        · exact absurd ‹_› (hnone _)
        · rfl
    have hfits : Fits id past request .unknown := by
      obtain ⟨bytes, rfl⟩ | rfl | rfl := hrequest <;> simp [Fits, hopen]
    rw [Goes, hstep]
    exact ⟨h.unknown _, hfits⟩

/-- A step leads from a state that its history explains to the next one, and its answer is the one
that a map would give. -/
theorem Simulates.step (h : Simulates id s past) (request : Request) : Goes id s past request := by
  cases request with
  | insert number path data => exact h.step_insert number path data
  | openRead path => exact h.step_openRead path
  | read r count => exact h.step_read r count
  | openWrite path => exact h.step_openWrite path
  | write w bytes => exact h.step_writer (.inl ⟨bytes, rfl⟩)
  | flush w => exact h.step_writer (.inr (.inl rfl))
  | close w => exact h.step_writer (.inr (.inr rfl))
  | delete path => exact h.step_delete path
  | list path =>
    rw [Goes, Access.step]
    split <;> exact ⟨h.failed _ (by simp) (by simp) (by simp), trivial⟩
  | wait now =>
    refine ⟨⟨h.inside, fun key => ?_, fun w => ?_, fun r => ?_⟩, rfl⟩
    · change (s.storage.memory id).bytes? key = _
      rw [h.content_eq, content_of_not_commits (by simp [Commits])]
    · exact (h.writers w).cons rfl rfl rfl
    · exact (h.readers r).cons rfl rfl

end Steps

/-- What a memory is after some requests to it. -/
structure Faithful (id : Nat) (s : Access) (past : History) : Prop where
  /-- Every key holds what the last step that committed to it has put there. -/
  content_eq : ∀ key, (s.storage.memory id).bytes? key = content id key past
  /-- A step changes no key but the one that it commits to. -/
  others_kept : ∀ request key, ¬Commits id past key request →
    ((s.step (.memory id) request).1.storage.memory id).bytes? key = (s.storage.memory id).bytes? key
  /-- No key occurs twice, and every key is canonical. -/
  sound : (s.storage.memory id).Sound
  /-- The text of a key falls into the names of the key. -/
  text : ∀ key, (s.storage.memory id).bytes? key ≠ none →
    Path.pieces ("/".intercalate key) = key
  /-- A key is addressed by the paths that have its names. -/
  addressed : ∀ key, (s.storage.memory id).bytes? key ≠ none → ∀ path,
    MemoryStore.key path = .ok key ↔ names path = key
  /-- Every answer was the one that a map would have given. -/
  explained : Explained id past

/-- After any requests to a memory it is what the requests and the answers say. -/
theorem run_simulates {count id : Nat} (hid : id < count) (disk : Disk) (now : Timestamp)
    (requests : List Request) :
    let result := run (.memory id) (fresh count disk now) requests
    Simulates id result.1 result.2 ∧ result.1.Sound ∧ Explained id result.2 := by
  induction requests with
  | nil => exact ⟨.fresh hid disk now, sound_fresh count disk now, trivial⟩
  | cons request earlier ih =>
    obtain ⟨hsimulates, hsound, hexplained⟩ := ih
    obtain ⟨hnext, hfits⟩ := hsimulates.step request
    exact ⟨hnext, hsound.step _ request, hfits, hexplained⟩

/-- Requests to a memory are answered as by a map from canonical keys to bytes, and the map is the one
that the history of the requests describes. -/
theorem run_faithful (count : Nat) (id : Fin count) (disk : Disk) (now : Timestamp)
    (requests : List Request) :
    let result := run (.memory id) (fresh count disk now) requests
    Faithful id result.1 result.2 := by
  intro result
  obtain ⟨hsimulates, hsound, hexplained⟩ := run_simulates id.isLt disk now requests
  have hcanonical (key : List String) (hkey : (result.1.storage.memory id).bytes? key ≠ none) :
      Canonical key := by
    obtain ⟨data, hdata⟩ := Option.ne_none_iff_exists'.mp hkey
    obtain ⟨file, hfile, -⟩ := Option.map_eq_some_iff.mp hdata
    exact (hsound.memories id).canonical_of_get? hfile
  exact {
    content_eq := hsimulates.content_eq
    others_kept := fun request key hrequest => by
      rw [(hsimulates.step request).1.content_eq, hsimulates.content_eq]
      exact content_of_not_commits hrequest _
    sound := hsound.memories id
    text := fun key hkey => (hcanonical key hkey).pieces_intercalate
    addressed := fun key hkey path => (hcanonical key hkey).key_eq_ok_iff path
    explained := hexplained }

end Sandbox.Access
