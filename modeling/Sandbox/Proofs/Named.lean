import Sandbox.Named
import Mathlib.Data.List.Perm.Basic
import Mathlib.Data.List.Nodup

/-!
# Things by name in ascending order

Putting things in their places one after the other gives a list in ascending order of the names, and
it holds the same things as long as no name occurs twice. A list in ascending order is determined by
what it holds, so the order in which the things come does not matter.
-/

namespace Sandbox

/-- Nothing is left twice. -/
theorem nodup_eraseDups {α : Type} [BEq α] [LawfulBEq α] (xs : List α) : xs.eraseDups.Nodup := by
  match xs with
  | [] => simp
  | x :: rest =>
    rw [List.eraseDups_cons, List.nodup_cons]
    refine ⟨fun hmem => ?_, nodup_eraseDups _⟩
    simpa using (List.mem_filter.mp (List.mem_eraseDups.mp hmem)).2
termination_by xs.length
decreasing_by
  rw [List.length_cons]
  exact Nat.lt_succ_of_le (List.length_filter_le ..)

namespace Named

variable {α : Type}

/-- The names stand in strictly ascending order. -/
def Ascending (things : List (String × α)) : Prop := things.Pairwise fun x y => x.1 < y.1

/-- A list in ascending order has no name twice. -/
theorem Ascending.nodup {things : List (String × α)} (h : Ascending things) :
    (things.map (·.1)).Nodup := by
  rw [List.Nodup, List.pairwise_map]
  refine h.imp fun {x y} hlt heq => ?_
  rw [heq] at hlt
  exact String.lt_irrefl _ hlt

/-- Putting a thing in its place brings no other name. -/
theorem name_mem_insert {name other : String} {a : α} {things : List (String × α)}
    (h : other ∈ (insert name a things).map (·.1)) : other = name ∨ other ∈ things.map (·.1) := by
  induction things with
  | nil => simpa [insert] using h
  | cons e rest ih =>
    rw [insert] at h
    grind

/-- Putting a thing in its place brings no other thing. -/
theorem mem_insert {name : String} {a : α} {things : List (String × α)} {x : String × α}
    (h : x ∈ insert name a things) : x = (name, a) ∨ x ∈ things := by
  induction things with
  | nil => simpa [insert] using h
  | cons e rest ih =>
    rw [insert] at h
    split at h
    · exact List.mem_cons.mp h
    · split at h
      · exact (List.mem_cons.mp h).imp_right (List.mem_cons_of_mem _)
      · rcases List.mem_cons.mp h with rfl | h
        · exact .inr List.mem_cons_self
        · exact (ih h).imp_right (List.mem_cons_of_mem _)

/-- Nothing is there but what has been put there. -/
theorem mem_insertAll {things more : List (String × α)} {x : String × α}
    (h : x ∈ insertAll things more) : x ∈ things ∨ x ∈ more := by
  induction more generalizing things with
  | nil => exact .inl h
  | cons e rest ih =>
    rcases ih h with hin | hrest
    · rcases mem_insert hin with rfl | hin
      · exact .inr List.mem_cons_self
      · exact .inl hin
    · exact .inr (List.mem_cons_of_mem _ hrest)

/-- A thing of a new name is added. -/
theorem insert_perm {name : String} {a : α} {things : List (String × α)}
    (hnew : name ∉ things.map (·.1)) : (insert name a things).Perm ((name, a) :: things) := by
  induction things with
  | nil => rfl
  | cons e rest ih =>
    obtain ⟨hne, hrest⟩ : name ≠ e.1 ∧ name ∉ rest.map (·.1) := by simpa using hnew
    simp only [insert, if_neg hne]
    split
    · rfl
    · exact ((ih hrest).cons e).trans (.swap ..)

/-- Putting a thing in its place keeps the order. -/
theorem Ascending.insert {things : List (String × α)} (h : Ascending things) (name : String) (a : α) :
    Ascending (insert name a things) := by
  induction things with
  | nil => simp [Named.insert, Ascending]
  | cons e rest ih =>
    obtain ⟨hfirst, hrest⟩ := List.pairwise_cons.mp h
    rw [Named.insert]
    split
    case isTrue hlt =>
      refine List.pairwise_cons.mpr ⟨fun x hx => ?_, h⟩
      rcases List.mem_cons.mp hx with rfl | hx
      · exact hlt
      · exact String.lt_trans hlt (hfirst x hx)
    case isFalse hge =>
      split
      case isTrue heq => exact List.pairwise_cons.mpr ⟨fun x hx => heq ▸ hfirst x hx, hrest⟩
      case isFalse hne =>
        have hlt : e.1 < name := by
          by_contra hnot
          exact hne (String.le_antisymm hnot hge)
        refine List.pairwise_cons.mpr ⟨fun x hx => ?_, ih hrest⟩
        rcases name_mem_insert (List.mem_map_of_mem hx) with hx | hx
        · exact hx ▸ hlt
        · obtain ⟨y, hy, heq⟩ := List.mem_map.mp hx
          exact heq ▸ hfirst y hy

/-- Putting more things in their places keeps the order. -/
theorem Ascending.insertAll {things : List (String × α)} (h : Ascending things)
    (more : List (String × α)) : Ascending (insertAll things more) := by
  induction more generalizing things with
  | nil => exact h
  | cons e rest ih => exact ih (h.insert e.1 e.2)

/-- Things of new names are added. -/
theorem insertAll_perm {things more : List (String × α)}
    (hnodup : ((things ++ more).map (·.1)).Nodup) :
    (insertAll things more).Perm (things ++ more) := by
  induction more generalizing things with
  | nil => simp [insertAll]
  | cons e rest ih =>
    have hnew : e.1 ∉ things.map (·.1) := by
      rw [List.map_append, List.nodup_append] at hnodup
      exact fun hmem => hnodup.2.2 _ hmem _ (by simp) rfl
    have hstep : (insert e.1 e.2 things ++ rest).Perm (things ++ e :: rest) :=
      ((insert_perm hnew).append_right rest).trans List.perm_middle.symm
    exact (ih ((hstep.map (·.1)).nodup_iff.mpr hnodup)).trans hstep

/-- Things that an ascending list holds are put into just this list, whatever order they come in. -/
theorem ofList_eq_of_perm {things sorted : List (String × α)} (hperm : things.Perm sorted)
    (hsorted : Ascending sorted) : ofList things = sorted := by
  have hnodup : (things.map (·.1)).Nodup := (hperm.map _).nodup_iff.mpr hsorted.nodup
  have hsame : (ofList things).Perm sorted := (insertAll_perm (by simpa using hnodup)).trans hperm
  have hascending : Ascending (ofList things) := Ascending.insertAll List.Pairwise.nil things
  exact hsame.eq_of_pairwise (fun x y _ _ hxy hyx => absurd hyx (String.lt_asymm hxy))
    hascending hsorted

/-! ## Names that occur twice -/

theorem lookup_insert (name other : String) (a : α) (things : List (String × α)) :
    (insert name a things).lookup other = ((name, a) :: things).lookup other := by
  induction things with
  | nil => rfl
  | cons e rest ih =>
    rw [insert]
    split
    · rfl
    · split
      · rename_i hsame
        rw [List.lookup_cons, List.lookup_cons, List.lookup_cons, hsame]
        cases other == e.1 <;> rfl
      · rename_i hdiffer
        rw [List.lookup_cons, List.lookup_cons, ih, List.lookup_cons, List.lookup_cons]
        by_cases hother : other = e.1
        · have hname : (other == name) = false := by simpa [hother] using Ne.symm hdiffer
          simp [hname]
        · have hname : (other == e.1) = false := by simpa using hother
          simp [hname]

/-- Under a name there is the last thing of this name. -/
theorem lookup_ofList (things : List (String × α)) (name : String) :
    (ofList things).lookup name = things.reverse.lookup name := by
  suffices h : ∀ more (acc : List (String × α)),
      (insertAll acc more).lookup name = (more.reverse ++ acc).lookup name by
    simpa [ofList] using h things []
  intro more
  induction more with
  | nil => intro acc; rfl
  | cons e rest ih =>
    intro acc
    have hstep := ih (insert e.1 e.2 acc)
    rw [List.lookup_append, lookup_insert] at hstep
    rw [List.reverse_cons, List.append_assoc, List.lookup_append]
    exact hstep

/-- A record that has each of the fields, in whatever order they come. -/
structure Retains (fields record : List (String × α)) : Prop where
  perm : record.Perm fields
  order : ∀ fields', fields'.Perm fields → ofList fields' = record

end Named
end Sandbox
