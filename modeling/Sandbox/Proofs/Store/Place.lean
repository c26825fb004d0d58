import Sandbox.Proofs.Store.Key
import Mathlib.Data.List.Induction

/-!
# Places

A place is given by the names that lead to it from the root of a tree. Walking along the steps of a
path goes from one place to another: a name leads down, and `..` leads up but stays at the root.
Cleaning an absolute path is walking along it from the root, and the text of a clean path is read as
this path again.
-/

namespace Sandbox.Path

open MemoryStore (IsName)

/-- The place that one step leads to. -/
def goOn (place : List String) (step : String) : List String :=
  if step = ".." then place.dropLast else place ++ [step]

/-- The place where a walk along some steps ends. -/
def walk (place steps : List String) : List String := steps.foldl goOn place

/-- No part of a walk along some steps, from its start on, leads above this start. -/
def StaysBelow (steps : List String) : Prop :=
  ∀ front, front <+: steps → front.count ".." ≤ front.countP (· ≠ "..")

/-- A path that is absolute and has nothing but names. -/
structure IsPlace (p : Path) : Prop where
  absolute : p.absolute = true
  isName : ∀ name ∈ p.steps, IsName name

variable {place steps names : List String}

@[simp] theorem walk_nil (place : List String) : walk place [] = place := rfl

theorem walk_append (place front back : List String) :
    walk place (front ++ back) = walk (walk place front) back := List.foldl_append ..

theorem walk_append_singleton (place front : List String) (step : String) :
    walk place (front ++ [step]) = goOn (walk place front) step := walk_append place front [step]

/-- Names lead straight down. -/
theorem walk_of_names (hnames : ".." ∉ names) : walk place names = place ++ names := by
  induction names using List.reverseRecOn with
  | nil => simp
  | append_singleton front name ih =>
    simp only [List.mem_append, List.mem_singleton, not_or] at hnames
    rw [walk_append_singleton, ih hnames.1, goOn, if_neg (Ne.symm hnames.2), List.append_assoc]

/-- A walk from a place comes by the names of this place and by steps of its own. -/
theorem mem_of_mem_walk {name : String} (hname : name ∈ walk place steps) :
    name ∈ place ∨ name ∈ steps ∧ name ≠ ".." := by
  induction steps using List.reverseRecOn with
  | nil => exact .inl hname
  | append_singleton front step ih =>
    rw [walk_append_singleton, goOn] at hname
    split at hname
    case isTrue =>
      exact (ih (List.dropLast_subset _ hname)).imp_right fun h => ⟨by simp [h.1], h.2⟩
    case isFalse hdots =>
      rcases List.mem_append.mp hname with hname | hname
      · exact (ih hname).imp_right fun h => ⟨by simp [h.1], h.2⟩
      · obtain rfl := List.mem_singleton.mp hname
        exact .inr ⟨by simp, hdots⟩

/-- A walk from a place with names only ends at such a place. -/
theorem dots_not_mem_walk (hplace : ".." ∉ place) : ".." ∉ walk place steps := fun hmem =>
  (mem_of_mem_walk hmem).elim hplace fun h => h.2 rfl

/-- A walk that never leads above its start ends at or below it, as far below as there are more names
than steps up. -/
theorem walk_eq_append_of_staysBelow (place : List String) (h : StaysBelow steps) :
    ∃ below, walk place steps = place ++ below ∧
      below.length + steps.count ".." = steps.countP (· ≠ "..") := by
  induction steps using List.reverseRecOn with
  | nil => exact ⟨[], by simp⟩
  | append_singleton front step ih =>
    obtain ⟨below, hwalk, hlength⟩ := ih fun part hpart => h part (hpart.trans (List.prefix_append _ _))
    rw [walk_append_singleton, hwalk, goOn]
    by_cases hdots : step = ".."
    · subst hdots
      have hnames : (front ++ [".."]).countP (· ≠ "..") = front.countP (· ≠ "..") := by
        simp [List.countP_append]
      have hups : (front ++ [".."]).count ".." = front.count ".." + 1 := by simp
      have hall := h (front ++ [".."]) (List.prefix_refl _)
      have hne : below ≠ [] := by
        rintro rfl
        rw [List.length_nil] at hlength
        omega
      have hpos := List.length_pos_iff.mpr hne
      refine ⟨below.dropLast, by rw [if_pos rfl, List.dropLast_append_of_ne_nil hne], ?_⟩
      rw [hnames, hups, List.length_dropLast]
      omega
    · have hnames : (front ++ [step]).countP (· ≠ "..") = front.countP (· ≠ "..") + 1 := by
        simp [List.countP_append, hdots]
      have hups : (front ++ [step]).count ".." = front.count ".." := by simp [hdots]
      refine ⟨below ++ [step], by rw [if_neg hdots, List.append_assoc], ?_⟩
      rw [hnames, hups, List.length_append, List.length_singleton]
      omega

/-! ## Cleaning -/

/-- A step of the cleaning of an absolute path is a step of a walk. -/
theorem advance_eq_goOn (hplace : ".." ∉ place) (step : String) :
    advance true place.reverse step = (goOn place step).reverse := by
  unfold advance goOn
  by_cases hdots : step = ".."
  · rw [if_pos hdots, if_pos hdots]
    rcases List.eq_nil_or_concat place with rfl | ⟨front, last, rfl⟩
    · rfl
    · have hlast : last ≠ ".." := by
        rintro rfl
        simp at hplace
      simp [hlast]
  · rw [if_neg hdots, if_neg hdots, List.reverse_append, List.reverse_singleton]
    rfl

/-- An absolute path is cleaned by walking along it from the root. -/
theorem clean_eq_walk {p : Path} (h : p.absolute = true) : p.clean = ⟨true, walk [] p.steps⟩ := by
  have hfold (steps : List String) : steps.foldl (advance true) [] = (walk [] steps).reverse := by
    induction steps using List.reverseRecOn with
    | nil => rfl
    | append_singleton front step ih =>
      rw [List.foldl_append, ih, walk_append_singleton]
      exact advance_eq_goOn (dots_not_mem_walk List.not_mem_nil) step
  rw [clean, h, hfold, List.reverse_reverse]

/-! ## Texts -/

/-- The steps of a text are names and `..`. -/
theorem isName_of_mem_steps {text name : String} (hname : name ∈ (ofText text).steps)
    (hdots : name ≠ "..") : IsName name := by
  obtain ⟨hpiece, hkept⟩ := List.mem_filter.mp hname
  obtain ⟨hempty, hdot⟩ : name ≠ "" ∧ name ≠ "." := by simpa using hkept
  exact ⟨hempty, hdot, hdots, not_mem_of_mem_pieces hpiece⟩

/-- An absolute path that is read from a text is cleaned to a place. -/
theorem isPlace_clean {cwd text : String} (h : ((ofText cwd).join (ofText text)).absolute = true) :
    IsPlace ((ofText cwd).join (ofText text)).clean := by
  rw [clean_eq_walk h]
  refine ⟨rfl, fun name hname => ?_⟩
  obtain ⟨hmem, hdots⟩ := (mem_of_mem_walk hname).resolve_left List.not_mem_nil
  unfold join at hmem
  split at hmem
  · exact isName_of_mem_steps hmem hdots
  · exact (List.mem_append.mp hmem).elim (isName_of_mem_steps · hdots) (isName_of_mem_steps · hdots)

/-- The text of a path of names and `..` is read as this path. -/
theorem ofText_toText {p : Path} (h : ∀ step ∈ p.steps, step = ".." ∨ IsName step) :
    ofText p.toText = p := by
  obtain ⟨absolute, steps⟩ := p
  have hfit : ∀ step ∈ steps, step ≠ "" ∧ step ≠ "." ∧ '/' ∉ step.toList := by
    intro step hstep
    rcases h step hstep with rfl | hname
    · decide
    · exact ⟨hname.ne_empty, hname.ne_dot, hname.no_slash⟩
  have hpieces : stepsOf (pieces ("/".intercalate steps)) = steps := by
    by_cases hne : steps = []
    · simp [hne, pieces_of_not_mem, stepsOf]
    · rw [pieces_intercalate hne fun step hstep => (hfit step hstep).2.2]
      exact List.filter_eq_self.mpr fun step hstep => by
        simp [(hfit step hstep).1, (hfit step hstep).2.1]
  cases absolute with
  | true =>
    have htext : toText ⟨true, steps⟩ = "" ++ "/" ++ "/".intercalate steps := rfl
    have hslash : stepsOf (pieces ("" ++ "/" ++ "/".intercalate steps)) =
        stepsOf (pieces ("/".intercalate steps)) := by
      rw [pieces_append_slash, pieces_of_not_mem (s := "") (by simp)]
      rfl
    rw [htext, ofText, hslash, hpieces]
    simp [String.startsWith_char_eq_head?]
  | false =>
    have htext : toText ⟨false, steps⟩ = "/".intercalate steps := String.empty_append ..
    have hstart : ("/".intercalate steps).startsWith '/' = false := by
      cases steps with
      | nil => simp [String.startsWith_char_eq_head?]
      | cons first rest =>
        obtain ⟨hempty, -, hslash⟩ := hfit first (by simp)
        obtain ⟨c, cs, hlist⟩ := List.exists_cons_of_ne_nil (mt String.toList_eq_nil_iff.mp hempty)
        have hc : c ≠ '/' := fun heq => hslash (by simp [hlist, heq])
        by_cases hrest : rest = []
        · simp [String.startsWith_char_eq_head?, hrest, hlist, hc]
        · rw [String.intercalate_cons_of_ne_nil hrest]
          simp [String.startsWith_char_eq_head?, hlist, hc]
    rw [htext, ofText, hpieces, hstart]

/-- The text of a place is read as this place. -/
theorem IsPlace.ofText_toText {p : Path} (h : IsPlace p) : ofText p.toText = p :=
  Path.ofText_toText fun step hstep => .inr (h.isName step hstep)

end Sandbox.Path
