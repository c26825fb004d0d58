import Sandbox.Proofs.Store.Access

/-!
# What a history says about a memory

A memory does what a map from keys to bytes would do, and everything about this map follows from the
requests and their answers. `content` reads it off: a key holds what the last step that committed to
it has put there, and a writer commits the bytes that the key held when the writer was opened, with
all that it has written over them. `Fits` says which answer such a map would give.
-/

namespace Sandbox.Access

open MemoryStore (names Canonical)

/-! ## Reading a history -/

/-- The path at which a writer has been opened, and what was before. -/
def writerOrigin (w : Nat) : History → Option (String × History)
  | [] => none
  | (.openWrite path, .opened number) :: past =>
    if number = w then some (path, past) else writerOrigin w past
  | _ :: past => writerOrigin w past

/-- The path at which a reader has been opened, and what was before. -/
def readerOrigin (r : Nat) : History → Option (String × History)
  | [] => none
  | (.openRead path, .opened number) :: past =>
    if number = r then some (path, past) else readerOrigin r past
  | _ :: past => readerOrigin r past

/-- All that a writer has written. -/
def written (w : Nat) : History → ByteArray
  | [] => .empty
  | (.write number bytes, .done) :: past =>
    if number = w then written w past ++ bytes else written w past
  | _ :: past => written w past

/-- All that a reader has yielded. -/
def yielded (r : Nat) : History → ByteArray
  | [] => .empty
  | (.read number _, .bytes chunk) :: past =>
    if number = r then yielded r past ++ chunk else yielded r past
  | _ :: past => yielded r past

/-- A writer has been closed. -/
def isClosed (w : Nat) : History → Bool
  | [] => false
  | (.close number, .done) :: past => number == w || isClosed w past
  | _ :: past => isClosed w past

/-- A writer has been opened and not been closed. -/
def isOpen (w : Nat) (past : History) : Bool := (writerOrigin w past).isSome && !isClosed w past

/-- What was before a writer was opened is only a part of what has been. -/
theorem length_of_writerOrigin {w : Nat} {past before : History} {path : String}
    (h : writerOrigin w past = some (path, before)) : before.length < past.length := by
  induction past with
  | nil => simp [writerOrigin] at h
  | cons event past ih =>
    rw [List.length_cons]
    unfold writerOrigin at h
    split at h
    · cases h
    · rename_i heq
      cases heq
      split at h
      · cases h
        exact Nat.lt_succ_self _
      · exact Nat.lt_succ_of_lt (ih h)
    · rename_i heq
      cases heq
      exact Nat.lt_succ_of_lt (ih h)

/-- What the last step that has committed to a key of a memory has put there: the bytes of an insert,
nothing for a file that has been taken away, and for a writer what the key held when it was opened,
with all that it has written over that. The commits of the writer `skipped` do not count. -/
def contentBut (id : Nat) (key : List String) (skipped : Option Nat) : History → Option ByteArray
  | [] => none
  | (.insert number path data, .done) :: past =>
    if number = id ∧ names path = key then some data else contentBut id key skipped past
  | (.delete path, .done) :: past =>
    if names path = key then none else contentBut id key skipped past
  | (.flush w, .done) :: past | (.close w, .done) :: past =>
    if skipped = some w then contentBut id key skipped past
    else match _h : writerOrigin w past with
      | some (path, before) =>
        if names path = key then
          (contentBut id key none before).map fun opened =>
            written w past ++ opened.extract (written w past).size opened.size
        else contentBut id key skipped past
      | none => contentBut id key skipped past
  | _ :: past => contentBut id key skipped past
termination_by past => past.length
decreasing_by
  all_goals try (simp only [List.length_cons]; omega)
  all_goals
    have := length_of_writerOrigin _h
    simp only [List.length_cons]
    omega

/-- The bytes at a key of a memory, or nothing if there is no file. -/
def content (id : Nat) (key : List String) (past : History) : Option ByteArray :=
  contentBut id key none past

section Content

variable {id : Nat} {key : List String} {past : History}

/-- An insert decides the key that its path addresses. -/
theorem content_insert (number : Nat) (path : String) (data : ByteArray) :
    content id key ((.insert number path data, .done) :: past) =
      if number = id ∧ names path = key then some data else content id key past := by
  rw [content, contentBut, content]

/-- Taking a file away decides the key that the path addresses. -/
theorem content_delete (path : String) :
    content id key ((.delete path, .done) :: past) =
      if names path = key then none else content id key past := by
  rw [content, contentBut, content]

/-- A commit decides the key of the writer. -/
theorem content_commit {request : Request} {w : Nat} {path : String} {before : History}
    {opened : ByteArray} (hrequest : request = .flush w ∨ request = .close w)
    (horigin : writerOrigin w past = some (path, before))
    (hopened : content id (names path) before = some opened) :
    content id key ((request, .done) :: past) =
      if names path = key then some (Disk.overwrite opened 0 (written w past))
      else content id key past := by
  have hcontent : content id key ((request, .done) :: past) =
      match writerOrigin w past with
      | some (path, before) =>
        if names path = key then
          (content id key before).map fun opened =>
            written w past ++ opened.extract (written w past).size opened.size
        else content id key past
      | none => content id key past := by
    rcases hrequest with rfl | rfl
    all_goals
      rw [content, contentBut, if_neg (by simp)]
      unfold content
      split <;> simp_all
  rw [hcontent, horigin]
  by_cases hkey : names path = key
  · subst hkey
    simp [hopened, Disk.overwrite_zero]
  · simp [hkey]

/-- A request that is not answered with success decides nothing. -/
theorem content_of_ne_done {request : Request} {answer : Answer} (hanswer : answer ≠ .done) :
    content id key ((request, answer) :: past) = content id key past := by
  rw [content, content]
  cases answer
  case done => exact absurd rfl hanswer
  all_goals cases request <;> rw [contentBut] <;> simp

end Content

/-! ## Answers and their histories -/

/-- The answer is the one that a map would give, after what has been. A listing is left open. -/
def Fits (id : Nat) (past : History) : Request → Answer → Prop
  | .insert number path _, answer => number = id →
    answer = if ".." ∈ names path ∨ names path = [] then .refused (.invalidPath path) else .done
  | .openRead path, answer =>
    if ".." ∈ names path then answer = .refused (.invalidPath path)
    else match content id (names path) past with
      | some _ => ∃ r, answer = .opened r ∧ readerOrigin r past = none
      | none => answer = .refused (.notFound path)
  | .read r count, answer =>
    match readerOrigin r past with
    | some (path, before) => ∃ data, content id (names path) before = some data ∧
      answer = .bytes (data.extract (yielded r past).size ((yielded r past).size + count))
    | none => answer = .unknown
  | .openWrite path, answer =>
    if ".." ∈ names path ∨ names path = [] then answer = .refused (.invalidPath path)
    else match content id (names path) past with
      | some _ => ∃ w, answer = .opened w ∧ writerOrigin w past = none
      | none => answer = .refused (.notFound path)
  | .write w _, answer | .flush w, answer | .close w, answer =>
    answer = if isOpen w past then .done else .unknown
  | .delete path, answer =>
    if ".." ∈ names path then answer = .refused (.invalidPath path)
    else match content id (names path) past with
      | some _ => answer = .done
      | none => answer = .refused (.notFound path)
  | .list _, _ => True
  | .wait _, answer => answer = .done

/-- Every answer of a history is the one that a map would give. -/
def Explained (id : Nat) : History → Prop
  | [] => True
  | (request, answer) :: past => Fits id past request answer ∧ Explained id past

/-- A request may decide a key: it goes to this key, or to a writer of it. -/
def Commits (id : Nat) (past : History) (key : List String) : Request → Prop
  | .insert number path _ => number = id ∧ names path = key
  | .delete path => names path = key
  | .flush w | .close w => ∃ path before, writerOrigin w past = some (path, before) ∧ names path = key
  | _ => False

/-- A request that is about no writer of a key and not about the key leaves it. -/
theorem content_of_not_commits {id : Nat} {past : History} {key : List String} {request : Request}
    (hrequest : ¬Commits id past key request) (answer : Answer) :
    content id key ((request, answer) :: past) = content id key past := by
  by_cases hanswer : answer = .done
  · subst hanswer
    have hcommit {w : Nat} (hnone : ¬∃ path before, writerOrigin w past = some (path, before) ∧
        names path = key) (path : String) (before : History)
        (horigin : writerOrigin w past = some (path, before)) : names path ≠ key :=
      fun hkey => hnone ⟨path, before, horigin, hkey⟩
    cases request with
    | insert number path data =>
      rw [content_insert]
      exact if_neg hrequest
    | delete path =>
      rw [content_delete]
      exact if_neg hrequest
    | flush w =>
      rw [content, contentBut, if_neg (by simp)]
      split
      · rename_i path before horigin
        rw [if_neg (hcommit hrequest path before horigin), content]
      · rfl
    | close w =>
      rw [content, contentBut, if_neg (by simp)]
      split
      · rename_i path before horigin
        rw [if_neg (hcommit hrequest path before horigin), content]
      · rfl
    | _ =>
      rw [content, content, contentBut]
      all_goals simp
  · exact content_of_ne_done hanswer

end Sandbox.Access
