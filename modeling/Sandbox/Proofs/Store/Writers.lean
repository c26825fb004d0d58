import Sandbox.Proofs.Store.Simulation

/-!
# Writers beside one another

A writer of a file that stays on a disk changes the bytes that it writes, and no others. A writer of a
memory file commits all bytes that the file had when it was opened. So it changes only what it has
written as long as nobody else has changed the rest in between: `step_careful_iff` states this
exactly. Where a file has been taken away in the meantime, a commit brings it back.
-/

namespace Sandbox.Access

open MemoryStore (names)

/-- The byte at a place of a file, if there is such a file and it is that long. -/
def byteAt (data : Option ByteArray) (i : Nat) : Option UInt8 := data.bind fun bytes => bytes.data[i]?

/-- The request makes an open writer commit; it has been opened at this path, after this. -/
structure Committing (past : History) (request : Request) (w : Nat) (path : String)
    (before : History) : Prop where
  commits : request = .flush w ∨ request = .close w
  isOpen : isOpen w past = true
  origin : writerOrigin w past = some (path, before)

/-- The step from one state to another one changes only what it may. -/
structure Careful (id : Nat) (s after : Access) (past : History) (request : Request) : Prop where
  /-- No file comes into being but by an insert. -/
  adds_nothing : ∀ key, (s.storage.memory id).bytes? key = none →
    (after.storage.memory id).bytes? key ≠ none →
    ∃ path data, request = .insert id path data ∧ names path = key
  /-- A commit leaves the bytes that the writer has not written as the last other commit to the file
  has left them. -/
  keeps_rest : ∀ w path before, Committing past request w path before →
    ∀ i, (written w past).size ≤ i →
      byteAt ((after.storage.memory id).bytes? (names path)) i =
        byteAt (contentBut id (names path) (some w) past) i
  /-- A commit leaves all other files. -/
  keeps_others : ∀ w path before, Committing past request w path before →
    ∀ key, key ≠ names path →
      (after.storage.memory id).bytes? key = (s.storage.memory id).bytes? key

/-- A commit of a writer changes nothing that an open file without truncation would keep: the file is
there, and the bytes behind what the writer has written are, as the last other commit has left them,
those that the file had when the writer was opened. -/
def Undisturbed (id : Nat) (s : Access) (past : History) (request : Request) : Prop :=
  ∀ w path before, Committing past request w path before →
    (s.storage.memory id).bytes? (names path) ≠ none ∧
      ∀ i, (written w past).size ≤ i →
        byteAt (content id (names path) before) i =
          byteAt (contentBut id (names path) (some w) past) i

/-- Behind the bytes that are written over it the data is what it was. -/
theorem byteAt_overwrite {data bytes : ByteArray} {i : Nat} (hi : bytes.size ≤ i) :
    byteAt (some (Disk.overwrite data 0 bytes)) i = byteAt (some data) i := by
  have hsize : bytes.data.size = bytes.size := rfl
  simp only [byteAt, Option.bind_some, Disk.overwrite_zero, ByteArray.data_append,
    ByteArray.data_extract]
  rw [Array.getElem?_append_right (by omega), Array.getElem?_extract, hsize]
  have hdata : data.data.size = data.size := rfl
  by_cases hlt : i < data.size
  · rw [if_pos (by omega), Nat.add_sub_cancel' hi]
  · rw [if_neg (by omega), Array.getElem?_eq_none (by omega)]

section Steps

variable {id : Nat} {s : Access} {past : History} {request : Request}

/-- An open writer has been opened on a file that was there. -/
theorem Simulates.exists_opened (h : Simulates id s past) {w : Nat} {path : String}
    {before : History} (hcommit : Committing past request w path before) :
    ∃ opened, content id (names path) before = some opened := by
  have hplace := h.writers w
  have hopen := hcommit.isOpen
  generalize s.writers[w]? = place at hplace
  cases hplace with
  | unknown hnone => simp [hnone, Access.isOpen] at hopen
  | closed hclosed => simp [hclosed, Access.isOpen] at hopen
  | ready horigin _ hopened =>
    rw [hcommit.origin] at horigin
    cases horigin
    exact ⟨_, hopened⟩

/-- After a commit the file holds what it had when the writer was opened, with what the writer has
written over it. -/
theorem Simulates.bytes?_of_committing (h : Simulates id s past) {w : Nat} {path : String}
    {before : History} (hcommit : Committing past request w path before) {opened : ByteArray}
    (hopened : content id (names path) before = some opened) (key : List String) :
    ((s.step (.memory id) request).1.storage.memory id).bytes? key =
      if names path = key then some (Disk.overwrite opened 0 (written w past))
      else (s.storage.memory id).bytes? key := by
  obtain ⟨hnext, hfits⟩ := h.step request
  have hdone : (s.step (.memory id) request).2 = .done := by
    obtain rfl | rfl := hcommit.commits
    all_goals simpa [Fits, hcommit.isOpen] using hfits
  rw [hnext.content_eq, hdone, content_commit hcommit.commits hcommit.origin hopened, h.content_eq]

/-- A file comes into being by an insert or by a commit. -/
theorem Simulates.exists_committing (h : Simulates id s past) {key : List String}
    (hbefore : (s.storage.memory id).bytes? key = none)
    (hafter : ((s.step (.memory id) request).1.storage.memory id).bytes? key ≠ none) :
    (∃ path data, request = .insert id path data ∧ names path = key) ∨
      ∃ w path before, Committing past request w path before ∧ names path = key := by
  obtain ⟨hnext, hfits⟩ := h.step request
  rw [h.content_eq] at hbefore
  rw [hnext.content_eq] at hafter
  have hdone : (s.step (.memory id) request).2 = .done := by
    by_contra hanswer
    exact hafter (by rw [content_of_ne_done hanswer, hbefore])
  have hcommits : Commits id past key request := by
    by_contra hnot
    exact hafter (by rw [content_of_not_commits hnot, hbefore])
  rw [hdone] at hafter hfits
  have hisOpen {w : Nat} (hanswer : Answer.done = if isOpen w past then .done else .unknown) :
      isOpen w past = true := by
    by_contra hclosed
    rw [if_neg hclosed] at hanswer
    cases hanswer
  cases request with
  | insert number path data =>
    obtain ⟨rfl, hkey⟩ := hcommits
    exact .inl ⟨path, data, rfl, hkey⟩
  | delete path => exact absurd ((content_delete path).trans (if_pos hcommits)) hafter
  | flush w =>
    obtain ⟨path, before, horigin, hkey⟩ := hcommits
    exact .inr ⟨w, path, before, ⟨.inl rfl, hisOpen hfits, horigin⟩, hkey⟩
  | close w =>
    obtain ⟨path, before, horigin, hkey⟩ := hcommits
    exact .inr ⟨w, path, before, ⟨.inr rfl, hisOpen hfits, horigin⟩, hkey⟩
  | _ => exact absurd hcommits (by simp [Commits])

/-- A step changes only what it may exactly if it is no commit that is disturbed. -/
theorem Simulates.careful_iff (h : Simulates id s past) (request : Request) :
    Careful id s (s.step (.memory id) request).1 past request ↔ Undisturbed id s past request := by
  constructor
  · intro hcareful w path before hcommit
    obtain ⟨opened, hopened⟩ := h.exists_opened hcommit
    have hafter := h.bytes?_of_committing hcommit hopened (names path)
    rw [if_pos rfl] at hafter
    refine ⟨fun hnone => ?_, fun i hi => ?_⟩
    · obtain ⟨_, _, hinsert, -⟩ := hcareful.adds_nothing _ hnone (by simp [hafter])
      obtain hflush | hclose := hcommit.commits
      · rw [hinsert] at hflush
        cases hflush
      · rw [hinsert] at hclose
        cases hclose
    · rw [← hcareful.keeps_rest w path before hcommit i hi, hafter, byteAt_overwrite hi, hopened]
  · intro hundisturbed
    refine ⟨fun key hbefore hafter => ?_, fun w path before hcommit i hi => ?_,
      fun w path before hcommit key hkey => ?_⟩
    · rcases h.exists_committing hbefore hafter with hinsert | ⟨w, path, before, hcommit, rfl⟩
      · exact hinsert
      · exact absurd hbefore (hundisturbed w path before hcommit).1
    · obtain ⟨opened, hopened⟩ := h.exists_opened hcommit
      rw [h.bytes?_of_committing hcommit hopened, if_pos rfl, byteAt_overwrite hi, ← hopened]
      exact (hundisturbed w path before hcommit).2 i hi
    · obtain ⟨opened, hopened⟩ := h.exists_opened hcommit
      rw [h.bytes?_of_committing hcommit hopened, if_neg (Ne.symm hkey)]

end Steps

/-- After any requests to a memory, the next step changes only what it may exactly if it is no commit
or a commit of a writer whose file is there, with the bytes behind what the writer has written still
being those that it found when it was opened. -/
theorem step_careful_iff (count : Nat) (id : Fin count) (disk : Disk) (now : Timestamp)
    (requests : List Request) (request : Request) :
    let result := run (.memory id) (fresh count disk now) requests
    Careful id result.1 (result.1.step (.memory id) request).1 result.2 request ↔
      Undisturbed id result.1 result.2 request :=
  (run_simulates id.isLt disk now requests).1.careful_iff request

/-- A file that has been taken away is there again once a writer of it is closed. -/
theorem not_careful_of_deleted :
    let result := run (.memory 0) (fresh 1 .empty .epoch)
      [.delete "a", .openWrite "a", .insert 0 "a" "old".toUTF8]
    ¬Careful 0 result.1 (result.1.step (.memory 0) (.close 0)).1 result.2 (.close 0) := by
  intro result hcareful
  obtain ⟨path, data, hinsert, -⟩ := hcareful.adds_nothing ["a"] (by decide) (by decide)
  cases hinsert

end Sandbox.Access
