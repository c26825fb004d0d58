import Mathlib.Data.List.SplitBy
import Sandbox.Module.SearchPath

/-!
# The runs of a search path

A search path is given as a text with semicolons, in which a doubled one stands for the standard template
between semicolons. What is made of a text by this rule, whose replacements bring semicolons of their own,
is read off the runs of the text: a run of semicolons is for the standard template once for each two of
them, and any other run is a template.
-/

namespace Sandbox

namespace SearchPath

/-- Two characters belong to one run if both or none of them are semicolons. -/
def sameRun (a b : Char) : Bool := (a == ';') == (b == ';')

/-- The runs of a text from left to right: stretches of semicolons and stretches of other characters,
each as long as it can be. -/
def runs (text : List Char) : List (List Char) := text.splitBy sameRun

/-- What a run is for: a run of semicolons for the standard template once for each two of them, any
other run for itself. -/
def templatesOfRun (run : List Char) : List (List Char) :=
  if ';' ∈ run then List.replicate (run.length / 2) standard.toList else [run]

/-- The parts between the semicolons of a text that are not empty. -/
def parts (text : List Char) : List (List Char) := (text.splitOn ';').filter (· ≠ [])

variable {run rest : List Char}

theorem parts_semicolon (rest : List Char) : parts (';' :: rest) = parts rest := by
  have hsplit : (';' :: rest).splitOn ';' = [[]] ++ rest.splitOn ';' :=
    List.splitOn_append_cons_self [] rest
  rw [parts, hsplit, List.filter_append]
  rfl

/-- A run that is no semicolons is one part. -/
theorem parts_run_append (hrun : ';' ∉ run) (hne : run ≠ []) (rest : List Char) :
    parts (run ++ ';' :: rest) = run :: parts rest := by
  rw [parts, List.splitOn_append_cons_self, List.splitOn_eq_singleton hrun, List.singleton_append,
    List.filter_cons_of_pos (by simpa using hne), parts]

theorem parts_run (hrun : ';' ∉ run) (hne : run ≠ []) : parts run = [run] := by
  rw [parts, List.splitOn_eq_singleton hrun, List.filter_cons_of_pos (by simpa using hne)]
  rfl

theorem expandDoubled_run_append (hrun : ';' ∉ run) (rest : List Char) :
    expandDoubled (run ++ rest) = run ++ expandDoubled rest := by
  induction run with
  | nil => rfl
  | cons c run ih =>
    obtain ⟨hc, hrun⟩ := not_or.mp (mt List.mem_cons.mpr hrun)
    rw [List.cons_append, expandDoubled.eq_2 c _ fun _ h _ => hc h.symm, ih hrun, List.cons_append]

/-- A semicolon that is not doubled stays alone. -/
theorem expandDoubled_single (hrest : rest.head? ≠ some ';') :
    expandDoubled (';' :: rest) = ';' :: expandDoubled rest := by
  refine expandDoubled.eq_2 ';' rest fun more _ h => hrest ?_
  rw [h]
  rfl

/-- Behind a semicolon nothing goes before it. -/
theorem exists_expandDoubled (rest : List Char) :
    ∃ more, expandDoubled (';' :: rest) = ';' :: more := by
  by_cases hrest : rest.head? = some ';'
  · obtain ⟨rest, rfl⟩ := List.head?_eq_some_iff.mp hrest
    exact ⟨_, rfl⟩
  · exact ⟨_, expandDoubled_single hrest⟩

/-- A run that is no semicolons is the first part, whatever semicolons are behind it. -/
theorem parts_expandDoubled_run (hrun : ';' ∉ run) (hne : run ≠ [])
    (hrest : ∀ c ∈ rest.head?, c = ';') :
    parts (expandDoubled (run ++ rest)) = run :: parts (expandDoubled rest) := by
  rw [expandDoubled_run_append hrun]
  cases rest with
  | nil =>
    rw [expandDoubled, List.append_nil, parts_run hrun hne]
    rfl
  | cons c rest =>
    obtain rfl := hrest c rfl
    obtain ⟨more, hmore⟩ := exists_expandDoubled rest
    rw [hmore, parts_run_append hrun hne, parts_semicolon]

/-- A run of semicolons is the standard template once for each two of them. -/
theorem parts_expandDoubled_replicate (n : Nat) (hrest : rest.head? ≠ some ';') :
    parts (expandDoubled (List.replicate n ';' ++ rest)) =
      List.replicate (n / 2) standard.toList ++ parts (expandDoubled rest) := by
  induction n using Nat.twoStepInduction with
  | zero => rfl
  | one =>
    rw [List.replicate_one, List.singleton_append, expandDoubled_single hrest, parts_semicolon]
    rfl
  | more n ih _ =>
    have hexpand : expandDoubled (List.replicate (n + 2) ';' ++ rest) = ';' ::
        (standard.toList ++ ';' :: expandDoubled (List.replicate n ';' ++ rest)) := rfl
    have hhalf : (n + 2) / 2 = n / 2 + 1 := by omega
    rw [hexpand, parts_semicolon, parts_run_append (by decide) (by decide), ih, hhalf,
      List.replicate_succ, List.cons_append]

/-- All characters of a run are like its first one. -/
theorem sameRun_of_isChain {c d : Char} (hchain : (c :: run).IsChain fun a b => sameRun a b = true)
    (hd : d ∈ c :: run) : sameRun c d = true := by
  induction run generalizing c with
  | nil =>
    obtain rfl := List.mem_singleton.mp hd
    simp [sameRun]
  | cons e run ih =>
    obtain ⟨hhead, hchain⟩ := List.isChain_cons.mp hchain
    have hce : sameRun c e = true := hhead e rfl
    rcases List.mem_cons.mp hd with rfl | hd
    · simp [sameRun]
    · have hed : sameRun e d = true := ih hchain hd
      simp only [sameRun, beq_iff_eq] at hce hed ⊢
      exact hce.trans hed

/-- What is behind a run begins with a character of the other kind. -/
theorem sameRun_head_of_isChain {c d : Char} {runs : List (List Char)}
    (hchain : (c :: run).IsChain fun a b => sameRun a b = true)
    (hnext : ∀ next ∈ runs.head?, ∃ ha hb, sameRun ((c :: run).getLast ha) (next.head hb) = false)
    (hd : d ∈ runs.flatten.head?) : sameRun c d = false := by
  cases runs with
  | nil => simp at hd
  | cons next runs =>
    obtain ⟨ha, hb, hother⟩ := hnext next rfl
    obtain ⟨e, next, rfl⟩ := List.exists_cons_of_ne_nil hb
    obtain rfl : e = d := by simpa using hd
    have hlast := sameRun_of_isChain hchain (List.getLast_mem ha)
    simp only [sameRun, beq_iff_eq] at hlast
    rw [sameRun, hlast]
    exact hother

/-- The parts of runs of which no two neighbours are of one kind are what the runs are for. -/
theorem parts_expandDoubled_flatten {runs : List (List Char)} (hne : [] ∉ runs)
    (hchain : ∀ run ∈ runs, run.IsChain fun a b => sameRun a b = true)
    (hnext : runs.IsChain fun a b => ∃ ha hb, sameRun (a.getLast ha) (b.head hb) = false) :
    parts (expandDoubled runs.flatten) = runs.flatMap templatesOfRun := by
  induction runs with
  | nil => rfl
  | cons run runs ih =>
    obtain ⟨hrun, hne⟩ := not_or.mp (mt List.mem_cons.mpr hne)
    obtain ⟨hsame, hchain⟩ := List.forall_mem_cons.mp hchain
    obtain ⟨hhead, hnext⟩ := List.isChain_cons.mp hnext
    have ih := ih hne hchain hnext
    obtain ⟨c, run, rfl⟩ := List.exists_cons_of_ne_nil (Ne.symm hrun)
    have hbehind : ∀ d ∈ runs.flatten.head?, sameRun c d = false :=
      fun d hd => sameRun_head_of_isChain hsame hhead hd
    rw [List.flatten_cons, List.flatMap_cons, ← ih]
    by_cases hc : c = ';'
    · have hall : c :: run = List.replicate (c :: run).length ';' := by
        refine List.eq_replicate_of_mem fun d hd => ?_
        simpa [sameRun, hc] using sameRun_of_isChain hsame hd
      have hrest : runs.flatten.head? ≠ some ';' := by
        intro hsemicolon
        simpa [sameRun, hc] using hbehind ';' hsemicolon
      rw [templatesOfRun, if_pos (by simp [hc]), ← parts_expandDoubled_replicate _ hrest, ← hall]
    · have hnone : ';' ∉ c :: run := by
        intro hmem
        simpa [sameRun, hc] using sameRun_of_isChain hsame hmem
      have hrest : ∀ d ∈ runs.flatten.head?, d = ';' := by
        intro d hd
        simpa [sameRun, hc] using hbehind d hd
      rw [templatesOfRun, if_neg hnone, parts_expandDoubled_run hnone (by simp) hrest,
        List.singleton_append]

/-- The templates of a search path with its doubled semicolons expanded are what its runs are for. -/
theorem templates_expandDoubled (text : List Char) :
    templates (String.ofList (expandDoubled text)) =
      ((runs text).flatMap templatesOfRun).map String.ofList := by
  have hparts : parts (expandDoubled text) = (runs text).flatMap templatesOfRun := by
    have h := parts_expandDoubled_flatten (List.nil_notMem_splitBy sameRun text)
      (fun _ => List.isChain_of_mem_splitBy) (List.isChain_getLast_head_splitBy sameRun text)
    rwa [List.flatten_splitBy] at h
  rw [templates, String.toList_ofList, List.filter_map, ← hparts, parts]
  congr 2
  funext part
  simp

/-- The file of a template for a module: each mark stands for the name of the module, in which slashes
stand for the dots. -/
def fileFor (name : List Char) (template : List Char) : String :=
  String.ofList (template.flatMap fun c =>
    if c = '?' then name.map fun d => if d = '.' then '/' else d else [c])

/-- The files that are tried for a module on a search path as it is given. -/
def files (raw name : String) : List String :=
  ((runs raw.toList).flatMap templatesOfRun).map (fileFor name.toList)

theorem replaceAll_dot (name : List Char) :
    replaceAll ['.'] ['/'] name = name.map fun c => if c = '.' then '/' else c := by
  induction name with
  | nil => rw [replaceAll, List.map_nil]
  | cons c name ih =>
    rw [replaceAll, List.map_cons]
    by_cases hc : c = '.'
    · simp [hc, ih]
    · simp [hc, Ne.symm hc, ih]

end SearchPath
end Sandbox
