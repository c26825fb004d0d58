import Sandbox.Proofs.Store.Place
import Mathlib.Data.List.Infix

/-!
# Clean paths

Cleaning a path takes each `..` together with the name in front of it. Steps up and then names are
left: no steps up where the path is absolute, and otherwise as many as the path leads above its start
where it is highest. Cleaning a part of a path first makes no difference, and steps that never lead
above their start never touch what is in front of them.
-/

namespace Sandbox.Path

open MemoryStore (IsName)

/-- How far a walk along some steps leads above its start where it is highest. -/
def climb (steps : List String) : Nat :=
  (steps.inits.map fun front => front.count ".." - front.countP (· ≠ "..")).foldl max 0

/-- How many steps up are left of a path. -/
def ups (p : Path) : Nat := if p.absolute then 0 else climb p.steps

variable {absolute : Bool} {place steps names : List String} {step last : String}

@[simp] theorem climb_nil : climb [] = 0 := rfl

/-- With one more step a walk is highest where it was, or at its end. -/
theorem climb_append_singleton (front : List String) (step : String) :
    climb (front ++ [step]) =
      max (climb front) ((front ++ [step]).count ".." - (front ++ [step]).countP (· ≠ "..")) := by
  have hinits : (front ++ [step]).inits = front.inits ++ [front ++ [step]] := by
    simp [List.inits_append]
  rw [climb, hinits, List.map_append, List.foldl_append, List.map_singleton, List.foldl_cons,
    List.foldl_nil, climb]

/-! ## One step -/

theorem advance_of_ne (hdots : step ≠ "..") : advance absolute place step = step :: place :=
  if_neg hdots

/-- A step up takes the name in front of it. -/
theorem advance_dots_cons (hlast : last ≠ "..") :
    advance absolute (last :: place) ".." = place := by
  rw [advance, if_pos rfl]
  exact if_neg hlast

/-- Behind steps up, a further one is kept. -/
theorem advance_dots_replicate (n : Nat) :
    advance false (List.replicate n "..") ".." = List.replicate (n + 1) ".." := by
  cases n <;> rfl

theorem mem_of_mem_advance {name : String} (hname : name ∈ advance absolute place step) :
    name ∈ place ∨ name = step := by
  unfold advance at hname
  grind

/-- Cleaning adds no steps of its own. -/
theorem mem_of_mem_foldl_advance {name : String}
    (hname : name ∈ steps.foldl (advance absolute) place) : name ∈ place ∨ name ∈ steps := by
  induction steps using List.reverseRecOn with
  | nil => exact .inl hname
  | append_singleton front step ih =>
    rw [List.foldl_append] at hname
    rcases mem_of_mem_advance hname with hname | rfl
    · exact (ih hname).imp_right (List.mem_append_left _)
    · exact .inr (by simp)

/-! ## Steps that stay below their start -/

theorem staysBelow_of_names (hnames : ".." ∉ names) : StaysBelow names := fun front hfront => by
  rw [List.count_eq_zero.mpr fun hmem => hnames (hfront.subset hmem)]
  exact Nat.zero_le _

/-- Steps that never lead above their start are cleaned by themselves. -/
theorem foldl_advance_of_staysBelow (h : StaysBelow steps) :
    steps.foldl (advance absolute) place = (walk [] steps).reverse ++ place := by
  induction steps using List.reverseRecOn with
  | nil => rfl
  | append_singleton front step ih =>
    have hfront : StaysBelow front := fun part hpart => h part (hpart.trans (List.prefix_append _ _))
    rw [List.foldl_append, ih hfront, List.foldl_cons, List.foldl_nil, walk_append_singleton, goOn]
    by_cases hdots : step = ".."
    · subst hdots
      obtain ⟨below, hwalk, hlength⟩ := walk_eq_append_of_staysBelow [] hfront
      rw [List.nil_append] at hwalk
      have hall := h (front ++ [".."]) (List.prefix_refl _)
      simp only [List.count_append, List.count_singleton_self, List.countP_append,
        List.countP_singleton, ne_eq, not_true_eq_false, decide_false, Bool.false_eq_true, if_false,
        Nat.add_zero] at hall hlength
      -- As many names are left as there are more names than steps up, so there is one to take.
      have hne : below ≠ [] := by
        rintro rfl
        rw [List.length_nil] at hlength
        omega
      obtain ⟨above, name, rfl⟩ := (List.eq_nil_or_concat below).resolve_left hne
      have hname : name ≠ ".." := by
        rintro rfl
        have hnone : ".." ∉ walk [] front := dots_not_mem_walk List.not_mem_nil
        exact hnone (by simp [hwalk])
      rw [hwalk, if_pos rfl, List.concat_eq_append, List.reverse_append, List.reverse_singleton,
        List.dropLast_concat]
      exact advance_dots_cons hname
    · rw [if_neg hdots, List.reverse_append]
      exact advance_of_ne hdots

theorem foldl_advance_of_names (hnames : ".." ∉ names) :
    names.foldl (advance absolute) place = names.reverse ++ place := by
  rw [foldl_advance_of_staysBelow (staysBelow_of_names hnames), walk_of_names hnames,
    List.nil_append]

/-! ## What is left of a path -/

/-- A relative path keeps as many steps up as it climbs, and as many names as it ends below. -/
theorem foldl_advance_relative (steps : List String) : ∃ names : List String, ".." ∉ names ∧
    steps.foldl (advance false) [] = names.reverse ++ List.replicate (climb steps) ".." ∧
    steps.count ".." + names.length = steps.countP (· ≠ "..") + climb steps := by
  induction steps using List.reverseRecOn with
  | nil => exact ⟨[], by simp⟩
  | append_singleton front step ih =>
    obtain ⟨names, hnames, hfold, hheight⟩ := ih
    rw [climb_append_singleton, List.foldl_append, hfold, List.foldl_cons, List.foldl_nil]
    by_cases hdots : step = ".."
    · subst hdots
      have hups : (front ++ [".."]).count ".." = front.count ".." + 1 := by simp
      have hdown : (front ++ [".."]).countP (· ≠ "..") = front.countP (· ≠ "..") := by
        simp [List.countP_append]
      rw [hups, hdown]
      rcases List.eq_nil_or_concat names with rfl | ⟨above, name, rfl⟩
      · have hclimb : max (climb front) (front.count ".." + 1 - front.countP (· ≠ "..")) =
            climb front + 1 := by
          rw [List.length_nil] at hheight
          omega
        refine ⟨[], List.not_mem_nil, ?_, ?_⟩
        · rw [hclimb]
          exact advance_dots_replicate (climb front)
        · rw [hclimb, List.length_nil]
          rw [List.length_nil] at hheight
          omega
      · rw [List.concat_eq_append] at hnames hheight ⊢
        obtain ⟨habove, hname⟩ : ".." ∉ above ∧ ".." ≠ name := by simpa using hnames
        rw [List.length_append, List.length_singleton] at hheight
        have hclimb : max (climb front) (front.count ".." + 1 - front.countP (· ≠ "..")) =
            climb front := by omega
        refine ⟨above, habove, ?_, by omega⟩
        rw [hclimb, List.reverse_append]
        exact advance_dots_cons hname.symm
    · have hups : (front ++ [step]).count ".." = front.count ".." := by simp [hdots]
      have hdown : (front ++ [step]).countP (· ≠ "..") = front.countP (· ≠ "..") + 1 := by
        simp [List.countP_append, hdots]
      have hclimb : max (climb front) (front.count ".." - (front.countP (· ≠ "..") + 1)) =
          climb front := by omega
      rw [hups, hdown, hclimb]
      refine ⟨names ++ [step], by simp [hnames, Ne.symm hdots], ?_, ?_⟩
      · rw [List.reverse_append]
        exact advance_of_ne hdots
      · rw [List.length_append, List.length_singleton]
        omega

/-- A clean path has its steps up and then names. -/
theorem clean_eq (p : Path) : ∃ names : List String, ".." ∉ names ∧
    p.clean = ⟨p.absolute, List.replicate p.ups ".." ++ names⟩ := by
  obtain ⟨absolute, steps⟩ := p
  cases absolute with
  | true => exact ⟨walk [] steps, dots_not_mem_walk List.not_mem_nil, clean_eq_walk rfl⟩
  | false =>
    obtain ⟨names, hnames, hfold, -⟩ := foldl_advance_relative steps
    refine ⟨names, hnames, ?_⟩
    rw [clean, hfold, List.reverse_append, List.reverse_reverse, List.reverse_replicate]
    rfl

/-- Steps up and then names are kept as they are. -/
theorem foldl_advance_replicate (n : Nat) (hn : absolute = true → n = 0) (hnames : ".." ∉ names) :
    (List.replicate n ".." ++ names).foldl (advance absolute) [] =
      names.reverse ++ List.replicate n ".." := by
  have hups : (List.replicate n "..").foldl (advance absolute) [] = List.replicate n ".." := by
    cases absolute with
    | true =>
      rw [hn rfl]
      rfl
    | false =>
      clear hn
      induction n with
      | zero => rfl
      | succ n ih =>
        rw [List.replicate_succ', List.foldl_append, ih, ← List.replicate_succ']
        exact advance_dots_replicate n
  rw [List.foldl_append, hups, foldl_advance_of_names hnames]

/-- Cleaning a clean path changes nothing. -/
theorem clean_clean (p : Path) : p.clean.clean = p.clean := by
  obtain ⟨names, hnames, hclean⟩ := clean_eq p
  have hups : p.absolute = true → p.ups = 0 := fun h => if_pos h
  rw [hclean, clean, foldl_advance_replicate p.ups hups hnames, List.reverse_append,
    List.reverse_reverse, List.reverse_replicate]

/-- The steps of a clean path are taken one by one. -/
theorem foldl_advance_of_clean {p : Path} (h : p.clean = p) :
    p.steps.foldl (advance p.absolute) [] = p.steps.reverse := by
  rw [← List.reverse_eq_iff]
  exact congrArg Path.steps h

/-- Before more steps are joined to a path, it may be cleaned. -/
theorem clean_join (p q : Path) : (p.join q).clean = (p.clean.join q).clean := by
  unfold join
  split
  case isTrue => rfl
  case isFalse =>
    have hfold : p.clean.steps.foldl (advance p.clean.absolute) [] =
        p.steps.foldl (advance p.absolute) [] :=
      (foldl_advance_of_clean (clean_clean p)).trans (List.reverse_reverse _)
    have hparts : ((p.clean.steps ++ q.steps).foldl (advance p.clean.absolute) []) =
        (p.steps ++ q.steps).foldl (advance p.absolute) [] := by
      rw [List.foldl_append, List.foldl_append, hfold]
      rfl
    exact congrArg (fun steps => Path.mk p.absolute steps.reverse) hparts.symm

/-- Steps that never lead above their start are cleaned behind a clean path. -/
theorem clean_join_of_staysBelow {p : Path} (hp : p.clean = p) (h : StaysBelow steps) :
    (p.join ⟨false, steps⟩).clean = ⟨p.absolute, p.steps ++ walk [] steps⟩ := by
  rw [join, if_neg Bool.false_ne_true, clean, List.foldl_append, foldl_advance_of_clean hp,
    foldl_advance_of_staysBelow h, List.reverse_append, List.reverse_reverse, List.reverse_reverse]

/-! ## Texts -/

/-- What is left of a text is names and `..`. -/
theorem clean_ofText_steps (text : String) :
    ∀ step ∈ (ofText text).clean.steps, step = ".." ∨ IsName step := by
  intro step hstep
  have hmem : step ∈ (ofText text).steps :=
    (mem_of_mem_foldl_advance (List.mem_reverse.mp hstep)).resolve_left List.not_mem_nil
  by_cases hdots : step = ".."
  · exact .inl hdots
  · exact .inr (isName_of_mem_steps hmem hdots)

/-- Cleaning is lexical resolution. A clean path is as absolute as before; an absolute one has names
only, and a relative one has names behind as many `..` as the path leads above its start where it is
highest. The text of the clean path is read as this path, cleaning it again changes nothing, and a path
may be cleaned before another one is joined to it. -/
theorem clean_lexical (text more : String) :
    let p := ofText text
    (∃ names, (∀ name ∈ names, IsName name) ∧
      p.clean = ⟨p.absolute,
        List.replicate (if p.absolute then 0 else climb p.steps) ".." ++ names⟩) ∧
    ofText p.clean.toText = p.clean ∧
    p.clean.clean = p.clean ∧
    (p.join (ofText more)).clean = (p.clean.join (ofText more)).clean := by
  intro p
  have hsteps := clean_ofText_steps text
  refine ⟨?_, ofText_toText hsteps, clean_clean p, clean_join p (ofText more)⟩
  obtain ⟨names, hnames, hclean⟩ := clean_eq p
  refine ⟨names, fun name hname => ?_, hclean⟩
  have hmem : name ∈ p.clean.steps := by simp [hclean, hname]
  exact (hsteps name hmem).resolve_left fun hdots => hnames (hdots ▸ hname)

example : climb ["a", "..", "..", "b", ".."] = 1 ∧
    (ofText "a/../.././b/..//c").clean = ⟨false, ["..", "c"]⟩ := by decide

end Sandbox.Path
