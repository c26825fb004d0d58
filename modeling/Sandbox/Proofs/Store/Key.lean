import Sandbox.Store.Memory

/-!
# Keys of memory stores

A path addresses a key by its names: the pieces between its slashes without the empty ones and the
single dots. The keys that files can have are the `Canonical` ones. The text of such a key, its names
with slashes between them, is a path that addresses just this key.
-/

namespace Sandbox

namespace Path

/-- The pieces of two texts with a slash between them are those of both. -/
theorem pieces_append_slash (s t : String) : pieces (s ++ "/" ++ t) = pieces s ++ pieces t := by
  have hlist : (s ++ "/" ++ t).toList = s.toList ++ '/' :: t.toList := by simp
  rw [pieces, hlist, List.splitOn_append_cons_self, List.map_append, pieces, pieces]

/-- A text without a slash is one piece. -/
theorem pieces_of_not_mem {s : String} (hslash : '/' ∉ s.toList) : pieces s = [s] := by
  rw [pieces, List.splitOn_eq_singleton hslash, List.map_singleton, String.ofList_toList]

/-- No part between two separators has a separator. -/
theorem not_mem_of_mem_splitOn {α : Type} [BEq α] [LawfulBEq α] {x : α} {part xs : List α}
    (hpart : part ∈ xs.splitOn x) : x ∉ part := by
  induction xs generalizing part with
  | nil =>
    rw [List.splitOn_nil, List.mem_singleton] at hpart
    simp [hpart]
  | cons y ys ih =>
    rw [List.splitOn_cons_eq_if_modifyHead] at hpart
    by_cases hxy : y = x
    · rw [if_pos (by simpa using hxy)] at hpart
      rcases List.mem_cons.mp hpart with rfl | hpart
      · simp
      · exact ih hpart
    · rw [if_neg (by simpa using hxy)] at hpart
      cases hys : ys.splitOn x with
      | nil => exact absurd hys (List.splitOn_ne_nil x ys)
      | cons first rest =>
        rw [hys, List.modifyHead_cons, List.mem_cons] at hpart
        rcases hpart with rfl | hpart
        · have hfirst : x ∉ first := ih (by simp [hys])
          simpa [hfirst] using Ne.symm hxy
        · exact ih (by simp [hys, hpart])

/-- No piece has a slash. -/
theorem not_mem_of_mem_pieces {s piece : String} (hpiece : piece ∈ pieces s) : '/' ∉ piece.toList := by
  obtain ⟨part, hpart, rfl⟩ := List.mem_map.mp hpiece
  rw [String.toList_ofList]
  exact not_mem_of_mem_splitOn hpart

/-- Some names, each with a slash behind it. -/
def leading : List String → String
  | [] => ""
  | name :: rest => name ++ "/" ++ leading rest

theorem leading_append (names more : List String) :
    leading (names ++ more) = leading names ++ leading more := by
  induction names with
  | nil => simp [leading]
  | cons name rest ih => simp only [List.cons_append, leading, ih, String.append_assoc]

/-- Names with slashes between them are the names in front of the last one and then this one. -/
theorem intercalate_append_singleton (names : List String) (last : String) :
    "/".intercalate (names ++ [last]) = leading names ++ last := by
  induction names with
  | nil => simp [leading]
  | cons name rest ih =>
    rw [List.cons_append, String.intercalate_cons_of_ne_nil (by simp), ih, leading]
    simp only [String.append_assoc]

/-- The pieces of a text behind some names are these names and its own pieces. -/
theorem pieces_leading_append {names : List String} (hnames : ∀ name ∈ names, '/' ∉ name.toList)
    (s : String) : pieces (leading names ++ s) = names ++ pieces s := by
  induction names with
  | nil => simp [leading]
  | cons name rest ih =>
    obtain ⟨hname, hrest⟩ := List.forall_mem_cons.mp hnames
    rw [leading, String.append_assoc, pieces_append_slash, pieces_of_not_mem hname, ih hrest]
    rfl

/-- Names without slashes are the pieces of the text with slashes between them. -/
theorem pieces_intercalate {names : List String} (hne : names ≠ [])
    (hnames : ∀ name ∈ names, '/' ∉ name.toList) : pieces ("/".intercalate names) = names := by
  obtain ⟨front, last, rfl⟩ := (List.eq_nil_or_concat names).resolve_left hne
  simp only [List.concat_eq_append] at hnames ⊢
  rw [intercalate_append_singleton, pieces_leading_append (fun name h => hnames name (by simp [h])),
    pieces_of_not_mem (hnames last (by simp))]

end Path

namespace MemoryStore

/-- The names on a path. -/
def names (path : String) : List String := Path.stepsOf (Path.pieces path)

/-- A name that can stand in a key. -/
structure IsName (name : String) : Prop where
  ne_empty : name ≠ ""
  ne_dot : name ≠ "."
  ne_dots : name ≠ ".."
  no_slash : '/' ∉ name.toList

/-- A key that a file can have. -/
structure Canonical (key : List String) : Prop where
  ne_nil : key ≠ []
  isName : ∀ name ∈ key, IsName name

theorem key_eq (path : String) :
    key path = if ".." ∈ names path then .error (.invalidPath path) else .ok (names path) := by
  unfold key names
  by_cases hdots : ".." ∈ Path.stepsOf (Path.pieces path) <;> simp [hdots]

/-- Names that have no dots only are names of a key. -/
theorem isName_of_mem_names {path name : String} (hdots : ".." ∉ names path)
    (hname : name ∈ names path) : IsName name := by
  obtain ⟨hpiece, hkept⟩ := List.mem_filter.mp hname
  obtain ⟨hempty, hdot⟩ : name ≠ "" ∧ name ≠ "." := by simpa using hkept
  exact ⟨hempty, hdot, fun heq => hdots (heq ▸ hname), Path.not_mem_of_mem_pieces hpiece⟩

/-- What a path addresses is a key, unless it has no names. -/
theorem canonical_names {path : String} (hdots : ".." ∉ names path) (hne : names path ≠ []) :
    Canonical (names path) :=
  ⟨hne, fun _ hname => isName_of_mem_names hdots hname⟩

/-- Names of a key are kept as they are. -/
theorem stepsOf_of_isName {key : List String} (hkey : ∀ name ∈ key, IsName name) :
    Path.stepsOf key = key := by
  refine List.filter_eq_self.mpr fun name hname => ?_
  simp [(hkey name hname).ne_empty, (hkey name hname).ne_dot]

/-- The text of a key falls into the names of the key. -/
theorem Canonical.pieces_intercalate {key : List String} (h : Canonical key) :
    Path.pieces ("/".intercalate key) = key :=
  Path.pieces_intercalate h.ne_nil fun name hname => (h.isName name hname).no_slash

/-- A key is addressed by its text. -/
theorem Canonical.names_intercalate {key : List String} (h : Canonical key) :
    names ("/".intercalate key) = key := by
  rw [names, h.pieces_intercalate, stepsOf_of_isName h.isName]

/-- Names of a key with a slash behind each address what they are. -/
theorem names_leading {key : List String} (hkey : ∀ name ∈ key, IsName name) :
    names (Path.leading key) = key := by
  have hpieces := Path.pieces_leading_append (fun name hname => (hkey name hname).no_slash) ""
  have hend : Path.pieces "" = [""] := Path.pieces_of_not_mem (by simp)
  rw [String.append_empty, hend] at hpieces
  have hempty : Path.stepsOf [""] = [] := by simp [Path.stepsOf]
  have hsplit : Path.stepsOf (key ++ [""]) = Path.stepsOf key ++ Path.stepsOf [""] :=
    List.filter_append ..
  rw [names, hpieces, hsplit, stepsOf_of_isName hkey, hempty, List.append_nil]

theorem Canonical.dots_not_mem {key : List String} (h : Canonical key) : ".." ∉ key :=
  fun hmem => (h.isName _ hmem).ne_dots rfl

/-- A path addresses a key that a file can have exactly if its names are those of the key. -/
theorem Canonical.key_eq_ok_iff {key : List String} (h : Canonical key) (path : String) :
    MemoryStore.key path = .ok key ↔ names path = key := by
  rw [key_eq]
  constructor
  · intro hkey
    split at hkey
    · cases hkey
    · exact Except.ok.inj hkey
  · intro hnames
    rw [if_neg (hnames ▸ h.dots_not_mem), hnames]

end MemoryStore
end Sandbox
