import Sandbox.Store.Routing
import Sandbox.Proofs.Store.Key

/-!
# Walks through stores

Going down from a directory into each directory that is listed there meets all files below it.
`Storage.walk` does so, with a bound on how deep it goes. `Storage.Walks` says what it meets where no
bound is in the way: it is built up listing by listing, so a walk through one store is a walk through
another one where both list the same.
-/

namespace Sandbox.Storage

open Sandbox.Path (leading)

/-- The files that a walk meets, by the texts of their paths, with their sizes. It starts with the
directory at `start`, a text that ends with a slash or is empty, and goes down at most so deep. -/
def walk (s : Storage) (store : Store) : Nat → String → Except Store.Error (List (String × Nat))
  | 0, start => .error (.notFound start)
  | depth + 1, start => do
    let entries ← s.list store start
    let parts ← entries.mapM fun e =>
      if e.isDirectory then walk s store depth (start ++ e.name ++ "/")
      else .ok [(start ++ e.name, e.size)]
    return parts.flatten

/-- What an entry of a directory stands for, by paths below this directory: itself, or what is under
the directory that it is. -/
def filesOf (under : String → List (List String × Nat)) (e : Entry) : List (List String × Nat) :=
  if e.isDirectory then (under e.name).map fun f => (e.name :: f.1, f.2) else [([e.name], e.size)]

/-- A walk from a directory never fails and meets these files, by their paths below the directory. -/
inductive Walks (s : Storage) (store : Store) : List String → List (List String × Nat) → Prop
  | list {directory : List String} {entries : List Entry}
      {under : String → List (List String × Nat)} :
      s.list store (leading directory) = .ok entries →
      (∀ e ∈ entries, e.isDirectory = true → Walks s store (directory ++ [e.name]) (under e.name)) →
      Walks s store directory (entries.flatMap (filesOf under))

variable {s : Storage} {store store' : Store}

/-- A file below a directory has a name there. -/
theorem Walks.ne_nil {directory : List String} {found : List (List String × Nat)}
    (h : Walks s store directory found) : ∀ f ∈ found, f.1 ≠ [] := by
  cases h with
  | list =>
    intro f hf
    obtain ⟨e, -, hfile⟩ := List.mem_flatMap.mp hf
    unfold filesOf at hfile
    split at hfile
    · obtain ⟨g, -, rfl⟩ := List.mem_map.mp hfile
      simp
    · rw [List.mem_singleton.mp hfile]
      simp

/-- Where two stores list the same below two directories, walks from there meet the same. -/
theorem Walks.transfer {front front' directory : List String} {found : List (List String × Nat)}
    (hlist : ∀ rest, s.list store (leading (front ++ rest)) =
      s.list store' (leading (front' ++ rest)))
    (h : Walks s store' directory found) :
    ∀ rest, directory = front' ++ rest → Walks s store (front ++ rest) found := by
  induction h with
  | list hentries _ ih =>
    intro rest heq
    subst heq
    refine .list ((hlist rest).trans hentries) fun e he hdirectory => ?_
    have hbelow := ih e he hdirectory (rest ++ [e.name]) (List.append_assoc ..)
    rwa [← List.append_assoc] at hbelow

/-- Things that succeed with any large enough bound do so together. -/
theorem exists_bound_mapM {α β ε : Type} {act : Nat → α → Except ε β} {out : α → β} {as : List α}
    (h : ∀ a ∈ as, ∃ bound, ∀ depth, bound ≤ depth → act depth a = .ok (out a)) :
    ∃ bound, ∀ depth, bound ≤ depth → as.mapM (act depth) = .ok (as.map out) := by
  induction as with
  | nil => exact ⟨0, fun _ _ => rfl⟩
  | cons a rest ih =>
    obtain ⟨hfirst, hrest⟩ := List.forall_mem_cons.mp h
    obtain ⟨bound, hbound⟩ := hfirst
    obtain ⟨bound', hbound'⟩ := ih hrest
    refine ⟨max bound bound', fun depth hdepth => ?_⟩
    rw [List.mapM_cons, hbound depth (by omega), hbound' depth (by omega)]
    rfl

/-- A walk that goes deep enough meets what is there to be met. -/
theorem Walks.exists_bound {directory : List String} {found : List (List String × Nat)}
    (h : Walks s store directory found) : ∃ bound, ∀ depth, bound ≤ depth →
      s.walk store depth (leading directory) =
        .ok (found.map fun f => (leading directory ++ "/".intercalate f.1, f.2)) := by
  induction h with
  | @list directory entries under hentries hunder ih =>
    let text (f : List String × Nat) : String × Nat :=
      (leading directory ++ "/".intercalate f.1, f.2)
    have hparts : ∀ e ∈ entries, ∃ bound, ∀ depth, bound ≤ depth →
        (if e.isDirectory then s.walk store depth (leading directory ++ e.name ++ "/")
          else .ok [(leading directory ++ e.name, e.size)]) = .ok ((filesOf under e).map text) := by
      intro e he
      by_cases hdirectory : e.isDirectory
      · obtain ⟨bound, hbound⟩ := ih e he hdirectory
        refine ⟨bound, fun depth hdepth => ?_⟩
        have hstart : leading directory ++ e.name ++ "/" = leading (directory ++ [e.name]) := by
          rw [Path.leading_append, leading, leading, String.append_empty, String.append_assoc]
        rw [if_pos hdirectory, hstart, hbound depth hdepth, filesOf, if_pos hdirectory, List.map_map]
        refine congrArg Except.ok (List.map_congr_left fun f hf => ?_)
        have hne := (hunder e he hdirectory).ne_nil f hf
        simp only [text, Function.comp_apply, ← hstart, String.intercalate_cons_of_ne_nil hne,
          String.append_assoc]
      · refine ⟨0, fun depth _ => ?_⟩
        rw [if_neg hdirectory, filesOf, if_neg hdirectory]
        simp [text]
    obtain ⟨bound, hbound⟩ := exists_bound_mapM hparts
    refine ⟨bound + 1, fun depth hdepth => ?_⟩
    obtain ⟨depth, rfl⟩ : ∃ k, depth = k + 1 := ⟨depth - 1, by omega⟩
    rw [walk, hentries]
    simp only [bind, Except.bind, hbound depth (by omega), pure, Except.pure, Except.ok.injEq]
    rw [List.map_flatMap, List.flatMap_def]

end Sandbox.Storage
