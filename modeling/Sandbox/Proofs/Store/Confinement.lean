import Sandbox.Store.Directory
import Sandbox.Proofs.Store.Place

/-!
# Directories confine their paths

A path of a directory store leads to the place where the walk along it from the root ends. It is
refused if this place is not at or below the root, even where another place with the same beginning of
its text is. The disk is only ever asked at places that are not refused.
-/

namespace Sandbox.Disk

/-- A walk from the root of the disk finds what stands at an absolute path. -/
theorem find_of_walk {d : Disk} {path : String} {way : List Nat} {number : Nat}
    (hempty : path.isEmpty = false) (hnul : path.contains '\x00' = false)
    (hsize : path.utf8ByteSize ≤ pathLimit) (habsolute : path.startsWith "/" = true)
    (hwalk : d.walk true stepLimit linkLimit [0] (stepsOfText path) = .ok way)
    (hnumber : way.headD 0 = number) : d.find ⟨true, []⟩ path = .ok number := by
  have htrace : d.trace ⟨true, []⟩ path = .ok way := by
    simp only [trace, hempty, hnul, Nat.not_lt.mpr hsize, habsolute, if_true, if_false,
      Bool.false_eq_true, List.nil_append]
    exact hwalk
  rw [find, htrace, ← hnumber]
  rfl

end Sandbox.Disk

namespace Sandbox.DirectoryStore

open Path (IsPlace StaysBelow walk)

/-- A place that is the root or lies below it. -/
structure Within (root place : Path) : Prop where
  isPlace : place.IsPlace
  isPrefix : root.steps <+: place.steps

/-- How the store answers a request for a path: with the refusal of the path, or by asking the disk
at the place within the root that the path resolves to. -/
def AsksWithin {α : Type} (root : Path) (path : String) (answer : Except Store.Error α)
    (ask : Path → Except Disk.Refusal α) : Prop :=
  (resolve root path = .error (.invalidPath path) ∧ answer = .error (.invalidPath path)) ∨
    ∃ place, resolve root path = .ok place ∧ Within root place ∧
      answer = (ask place).mapError (.ofRefusal path)

variable {root : Path}

/-- A path resolves to the clean path behind the root, if this is within the root. -/
theorem resolve_of_clean {path : String} {target : Path}
    (h : (root.join ⟨false, (Path.ofText path).steps⟩).clean = target) :
    resolve root path =
      if target.isWithin root then .ok target else .error (.invalidPath path) := by
  subst h
  rfl

/-- A path resolves to the place where the walk along it ends, if this is within the root. -/
theorem resolve_eq (hroot : root.IsPlace) (path : String) :
    resolve root path =
      if root.steps <+: walk root.steps (Path.ofText path).steps then
        .ok ⟨true, walk root.steps (Path.ofText path).steps⟩
      else .error (.invalidPath path) := by
  have hdots : ".." ∉ root.steps := fun hmem => (hroot.isName _ hmem).ne_dots rfl
  have hclean : (root.join ⟨false, (Path.ofText path).steps⟩).clean =
      ⟨true, walk root.steps (Path.ofText path).steps⟩ := by
    have hjoin : root.join ⟨false, (Path.ofText path).steps⟩ =
        ⟨true, root.steps ++ (Path.ofText path).steps⟩ := by
      rw [Path.join, if_neg Bool.false_ne_true, hroot.absolute]
    rw [hjoin, Path.clean_eq_walk rfl, Path.walk_append, Path.walk_of_names hdots, List.nil_append]
  have hwithin (steps : List String) :
      Path.isWithin ⟨true, steps⟩ root = true ↔ root.steps <+: steps := by
    simp [Path.isWithin, hroot.absolute]
  rw [resolve_of_clean hclean]
  simp only [hwithin]

/-- What a path resolves to is a place within the root. -/
theorem within_of_resolve (hroot : root.IsPlace) {path : String} {place : Path}
    (h : resolve root path = .ok place) : Within root place := by
  rw [resolve_eq hroot] at h
  split at h
  case isTrue hprefix =>
    obtain rfl := Except.ok.inj h
    refine ⟨⟨rfl, fun name hname => ?_⟩, hprefix⟩
    rcases Path.mem_of_mem_walk hname with hname | ⟨hname, hdots⟩
    · exact hroot.isName name hname
    · exact Path.isName_of_mem_steps hname hdots
  case isFalse => cases h

/-- A path either is refused or resolves. -/
theorem resolve_cases (hroot : root.IsPlace) (path : String) :
    resolve root path = .error (.invalidPath path) ∨
      ∃ place, resolve root path = .ok place ∧ Within root place := by
  by_cases hprefix : root.steps <+: walk root.steps (Path.ofText path).steps
  · have hok := (resolve_eq hroot path).trans (if_pos hprefix)
    exact .inr ⟨_, hok, within_of_resolve hroot hok⟩
  · exact .inl ((resolve_eq hroot path).trans (if_neg hprefix))

/-- Whatever is done at the place of a path is done within the root. -/
theorem asksWithin_atPath {α : Type} (hroot : root.IsPlace) (path : String)
    (ask : String → Except Disk.Refusal α) :
    AsksWithin root path (atPath root path ask) fun place => ask place.toText := by
  rcases resolve_cases hroot path with h | ⟨place, h, hwithin⟩
  · exact .inl ⟨h, by rw [atPath, h]; rfl⟩
  · refine .inr ⟨place, h, hwithin, ?_⟩
    change atPath root path ask = (ask place.toText).mapError (.ofRefusal path)
    rw [atPath, h]
    cases hask : ask place.toText <;> simp [hask, Except.mapError, bind, Except.bind] <;> rfl

/-- The entries of a directory are those that the disk has at a place within the root. -/
theorem asksWithin_list (hroot : root.IsPlace) (d : Disk) (path : String) :
    AsksWithin root path (list d root path) fun place =>
      (entriesAt d place.toText).map (entriesOf d ⟨false, (place.below? root).getD []⟩) := by
  rcases asksWithin_atPath hroot path (entriesAt d) with ⟨h, hanswer⟩ | ⟨place, h, hwithin, hanswer⟩
  · exact .inl ⟨h, by rw [list, h]; rfl⟩
  · refine .inr ⟨place, h, hwithin, ?_⟩
    simp only [list, h, hanswer]
    cases entriesAt d place.toText <;> rfl

/-- What is taken away is at a place within the root; the root itself is refused. -/
theorem asksWithin_delete (hroot : root.IsPlace) (d : Disk) (now : Timestamp) (path : String) :
    if resolve root path = .ok root then delete d now root path = .error (.invalidPath path)
    else AsksWithin root path (delete d now root path) fun place =>
      d.remove now ⟨true, []⟩ place.toText := by
  rcases asksWithin_atPath hroot path fun p => d.remove now ⟨true, []⟩ p with
    ⟨h, hanswer⟩ | ⟨place, h, hwithin, hanswer⟩
  · rw [if_neg (by simp [h])]
    exact .inl ⟨h, by rw [delete, h]; rfl⟩
  · by_cases hsame : place = root
    · rw [if_pos (by rw [h, hsame]), delete, h, hsame]
      exact if_pos rfl
    · rw [if_neg (by simpa [h] using hsame)]
      refine .inr ⟨place, h, hwithin, ?_⟩
      rw [← hanswer, delete, h]
      exact if_neg hsame

/-- The root is absolute where its text is, or the directory that it is seen from. -/
theorem isPlace_root {cwd text : String}
    (habsolute : text.startsWith '/' = true ∨ cwd.startsWith '/' = true) :
    (DirectoryStore.root (.ofText cwd) text).IsPlace := by
  refine Path.isPlace_clean ?_
  unfold Path.join
  split
  case isTrue h => exact h
  case isFalse h => exact habsolute.resolve_left h

/-- A directory confines its paths to its root, which is absolute. A path resolves to the place where
the walk along its steps from the root ends, exactly if this place is within the root; the disk reads
the text of the place as this place. A path that never leads above its start is not refused. To read,
to write, to list and to delete, the disk is asked at this place only, and to delete never at the
root. -/
theorem resolve_confined (cwd text path : String)
    (habsolute : text.startsWith '/' = true ∨ cwd.startsWith '/' = true) :
    let root := DirectoryStore.root (.ofText cwd) text
    let target := walk root.steps (Path.ofText path).steps
    root.IsPlace ∧
      resolve root path =
        (if root.steps <+: target then .ok ⟨true, target⟩ else .error (.invalidPath path)) ∧
      (∀ place, resolve root path = .ok place →
        Within root place ∧ Path.ofText place.toText = place) ∧
      (StaysBelow (Path.ofText path).steps → ∃ place, resolve root path = .ok place) ∧
      ∀ (d : Disk) (now : Timestamp),
        AsksWithin root path (openRead d root path) (fun place => d.find ⟨true, []⟩ place.toText) ∧
        AsksWithin root path (openWrite d root path) (fun place => writable d place.toText) ∧
        AsksWithin root path (list d root path) (fun place =>
          (entriesAt d place.toText).map (entriesOf d ⟨false, (place.below? root).getD []⟩)) ∧
        if resolve root path = .ok root then delete d now root path = .error (.invalidPath path)
        else AsksWithin root path (delete d now root path) fun place =>
          d.remove now ⟨true, []⟩ place.toText := by
  intro root target
  have hroot : root.IsPlace := isPlace_root habsolute
  refine ⟨hroot, resolve_eq hroot path, fun place h => ?_, fun hstays => ?_, fun d now => ?_⟩
  · have hwithin := within_of_resolve hroot h
    exact ⟨hwithin, hwithin.isPlace.ofText_toText⟩
  · obtain ⟨below, hwalk, -⟩ := Path.walk_eq_append_of_staysBelow root.steps hstays
    exact ⟨_, (resolve_eq hroot path).trans (if_pos ⟨below, hwalk.symm⟩)⟩
  · exact ⟨asksWithin_atPath hroot path _, asksWithin_atPath hroot path _,
      asksWithin_list hroot d path, asksWithin_delete hroot d now path⟩

/-- A path may leave the root and come back to it, while a neighbour of the root whose name begins
with that of the root is refused. -/
theorem resolve_confined_of_return :
    let root := DirectoryStore.root (.ofText "/srv/x") "../a/."
    ("../a/.".startsWith '/' = true ∨ "/srv/x".startsWith '/' = true) ∧
      resolve root "//b/../../a/./c" = .ok ⟨true, ["srv", "a", "c"]⟩ ∧
      resolve root "../ab" = .error (.invalidPath "../ab") := by
  intro root
  have habsolute : "../a/.".startsWith '/' = true ∨ "/srv/x".startsWith '/' = true := by decide
  have hback := (resolve_confined "/srv/x" "../a/." "//b/../../a/./c" habsolute).2.1
  have hbeside := (resolve_confined "/srv/x" "../a/." "../ab" habsolute).2.1
  exact ⟨habsolute, hback.trans (by decide), hbeside.trans (by decide)⟩

end Sandbox.DirectoryStore
