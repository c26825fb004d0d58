import Sandbox.Proofs.Module.Graph
import Sandbox.Proofs.Module.Once

/-!
# What require leaves in the table of modules

A search for a module may run scripts, and so may the function of a module, while they do what they like
with the table of modules. `requireBy` is `require` with any searches in place of the three searchers.
Between what the searches and the function do it writes nothing, and once the function has returned it
keeps one value, which is the answer.
-/

namespace Sandbox

open Script

variable {H : Type} {m m' : Machine H World}

namespace Module

/-- Asks for a module by one search after the other, with where has been looked so far. -/
def consultBy (invoke : Invoke H World) (name : String) :
    List (Run H World Finding) → String → Run H World Value
  | [], trail => Run.fail (.runtime s!"module '{name}' not found:{trail}")
  | search :: rest, trail => do
    match ← search with
    | .missing more => consultBy invoke name rest (trail ++ more)
    | .found loader label => make invoke name loader label

/-- The module of a name, which is made if it is not there, by any searches. -/
def requireBy (invoke : Invoke H World) (searches : List (Run H World Finding)) (name : String) :
    Run H World Value := do
  noteModules (.asked name)
  let v ← kept invoke name
  let v ← if v.isTrue then pure v else consultBy invoke name searches ""
  noteModules (.answered name v)
  return v

/-- The searches of the searchers. -/
def searches (invoke : Invoke H World) (tables : ModuleTables) (name : String) :
    List (Run H World Finding) :=
  Searcher.all.map (ask invoke tables name)

theorem consult_eq (invoke : Invoke H World) (tables : ModuleTables) (name : String)
    (searchers : List Searcher) (trail : String) :
    consult invoke tables name searchers trail =
      consultBy invoke name (searchers.map (ask invoke tables name)) trail := by
  induction searchers generalizing trail with
  | nil => rfl
  | cons s rest ih =>
    rw [consult, List.map_cons, consultBy]
    refine bind_congr fun finding => ?_
    cases finding with
    | missing more => exact ih _
    | found loader label => rfl

/-- `require` asks the searchers. -/
theorem require_eq (invoke : Invoke H World) (tables : ModuleTables) (name : String) :
    require invoke tables name = requireBy invoke (searches invoke tables name) name := by
  unfold require requireBy searches
  simp only [consult_eq]

/-- How some searches end, asked from the first one on until one does not answer that there is nothing,
and the machine as the last of them leaves it. -/
def walk : List (Run H World Finding) → Machine H World → Verdict × Machine H World
  | [], m => (.missing "", m)
  | search :: rest, m =>
    match search.run m with
    | .error stop m' => (.stopped stop, m')
    | .ok (.found loader label) m' => (.hit loader label, m')
    | .ok (.missing trail) m' => ((walk rest m').1.behind trail, (walk rest m').2)

variable {invoke : Invoke H World} {name label : String} {loader : Value} {results : List Value}
  {searches : List (Run H World Finding)}

theorem walk_consultBy (invoke : Invoke H World) (name : String)
    (searches : List (Run H World Finding)) (trail : String) (m : Machine H World) :
    (consultBy invoke name searches trail).run m =
      (conclude invoke name ((walk searches m).1.behind trail)).run (walk searches m).2 := by
  induction searches generalizing trail m with
  | nil =>
    rw [walk, Verdict.behind, String.append_empty]
    rfl
  | cons search rest ih =>
    rw [consultBy, walk]
    cases hsearch : search.run m with
    | error stop m' => exact Run.bind_error hsearch
    | ok finding m' =>
      rw [Run.bind_ok hsearch]
      cases finding with
      | missing more =>
        rw [Verdict.behind_behind]
        exact ih _ m'
      | found loader label => rfl

/-- A search never answers that what it has found is no module: it stops. -/
theorem walk_ne_broken (searches : List (Run H World Finding)) (m : Machine H World) (fault : Fault) :
    (walk searches m).1 ≠ .broken fault := by
  induction searches generalizing m with
  | nil => simp [walk]
  | cons search rest ih =>
    rw [walk]
    split
    case h_1 => simp
    case h_2 => simp
    case h_3 m' _ =>
      have := ih m'
      cases hrest : (walk rest m').1 <;> simp_all [Verdict.behind]

/-- The call of the function of a module. -/
def call (invoke : Invoke H World) (name label : String) (loader : Value) : Run H World (List Value) :=
  invoke none loader [.ofString name, .ofString label]

/-- The machine after the result of the function of a module is kept. -/
def settledBy (m : Machine H World) (name : String) (result : Value) : Machine H World :=
  (m.noted (.returned name result m.modules)).setModules (m.modules.settled name result)

theorem modules_settledBy (hready : m.Ready) (name : String) (result : Value) :
    (settledBy m name result).modules = m.modules.settled name result :=
  Machine.modules_setModules (m := m.noted _) hready.loaded _

/-- The function of a module returns: its first result is kept, and what is kept is the answer. -/
theorem make_run (hready : m'.Ready)
    (hcall : (call invoke name label loader).run (m.noted (.called name loader label)) =
      .ok results m') :
    (make invoke name loader label).run m =
      .ok ((m'.modules.settled name (results.headD .nil)).getText name)
        (settledBy m' name (results.headD .nil)) := by
  have hguarded : (Run.callGuarded invoke loader [.ofString name, .ofString label]).run
      (m.noted (.called name loader label)) = .ok (.ok results) m' := Run.guarded_ok invoke hcall
  rw [make, Run.bind_ok (note_run _), Run.bind_ok hguarded]
  change (settle invoke name (results.headD .nil)).run m' = _
  rw [settle_run hready.plain invoke hready.loaded, hready.sound.fieldOr_put]
  rfl

theorem fail_run (fault : Fault) (m : Machine H World) :
    (Run.fail fault : Run H World Value).run m =
      .error (.raised (.fault m.faults.size)) { m with faults := m.faults.push fault } := rfl

/-- How a module that is not there cannot be made: a search stops, no search finds anything, or the call
of the function raises an error or is given up. The second machine is as the searches and the function
have left it, together with what gives the host the text of the function's error. -/
inductive Fails (invoke : Invoke H World) (searches : List (Run H World Finding)) (name : String)
    (m left : Machine H World) : Prop
  | search {stop : Stop} (hwalk : walk searches m = (.stopped stop, left))
  | nowhere {trail : String} (hwalk : walk searches m = (.missing trail, left))
  | raised {loader : Value} {label : String} {found : Machine H World} {fault : Fault}
      (hwalk : walk searches m = (.hit loader label, found))
      (hcall : (Run.guarded invoke (call invoke name label loader)).run
        (found.noted (.called name loader label)) = .ok (.error fault) left)
  | givenUp {loader : Value} {label : String} {found : Machine H World} {stop : Stop}
      (hwalk : walk searches m = (.hit loader label, found))
      (hcall : (Run.guarded invoke (call invoke name label loader)).run
        (found.noted (.called name loader label)) = .error stop left)

/-- A module that is made is what its function has returned, or else what is there then, or else true,
and a module that cannot be made leaves the tables alone. -/
theorem consultBy_cases (hback : ∀ loader label found results back,
      walk searches m = (.hit loader label, found) →
      (call invoke name label loader).run (found.noted (.called name loader label)) =
        .ok results back → back.Ready) :
    (∃ loader label found results back, walk searches m = (.hit loader label, found) ∧
      (call invoke name label loader).run (found.noted (.called name loader label)) =
        .ok results back ∧ back.Ready ∧
      (consultBy invoke name searches "").run m =
        .ok ((back.modules.settled name (results.headD .nil)).getText name)
          (settledBy back name (results.headD .nil))) ∨
    ∃ stop left faults, Fails invoke searches name m left ∧
      (consultBy invoke name searches "").run m = .error stop { left with faults } := by
  have hconsult := walk_consultBy invoke name searches "" m
  rw [Verdict.behind_empty] at hconsult
  rcases hwalk : walk searches m with ⟨verdict, found⟩
  rw [hwalk] at hconsult
  cases verdict with
  | missing trail => exact .inr ⟨_, found, _, .nowhere hwalk, hconsult.trans (fail_run _ _)⟩
  | broken fault => exact absurd (congrArg Prod.fst hwalk) (walk_ne_broken searches m fault)
  | stopped stop => exact .inr ⟨_, found, _, .search hwalk, hconsult⟩
  | hit loader label =>
    have hnote := note_run (m := found) (.called name loader label)
    cases hguarded : (Run.guarded invoke (call invoke name label loader)).run
      (found.noted (.called name loader label)) with
    | error stop left =>
      refine .inr ⟨stop, left, left.faults, .givenUp hwalk hguarded, hconsult.trans ?_⟩
      exact (Run.bind_ok hnote).trans (Run.bind_error hguarded)
    | ok outcome left =>
      cases outcome with
      | error fault =>
        refine .inr ⟨.raised (.fault left.faults.size), left, left.faults.push fault,
          .raised hwalk hguarded, hconsult.trans ?_⟩
        exact (Run.bind_ok hnote).trans ((Run.bind_ok hguarded).trans (fail_run fault left))
      | ok results =>
        have hcall := Run.run_of_guarded hguarded
        have hready := hback loader label found results left hwalk hcall
        exact .inl ⟨loader, label, found, results, left, rfl, hcall, hready,
          hconsult.trans (make_run hready hcall)⟩

/-- What the answer for a module is, and the machine afterwards. -/
structure Answered (invoke : Invoke H World) (searches : List (Run H World Finding)) (name : String)
    (m : Machine H World) (v : Value) (m' : Machine H World) : Prop where
  ready : m'.Ready
  ne_nil : v ≠ .nil
  kept : m'.modules.getText name = v
  /-- A module that is there is the answer, and the tables stay. -/
  present : (m.modules.getText name).isTrue = true → v = m.modules.getText name ∧ m'.tables = m.tables
  /-- Otherwise a search finds a function, which returns, and what it has left in the tables stays but
  for the module. -/
  made : (m.modules.getText name).isTrue = false → ∃ loader label found results back,
    walk searches (m.noted (.asked name m.modules)) = (.hit loader label, found) ∧
    (call invoke name label loader).run (found.noted (.called name loader label)) = .ok results back ∧
    v = (if (results.headD .nil).isNil then back.modules.fieldOr name (.bool true)
      else results.headD .nil) ∧
    m'.tables = (back.setModules (back.modules.settled name (results.headD .nil))).tables

/-- What a machine is like after a module could not be had. -/
structure Refused (invoke : Invoke H World) (searches : List (Run H World Finding)) (name : String)
    (m m' : Machine H World) : Prop where
  absent : (m.modules.getText name).isTrue = false
  /-- All is as the searches and the function have left it, but that the host has an error to show. -/
  untouched : ∃ left faults, Fails invoke searches name (m.noted (.asked name m.modules)) left ∧
    m' = { left with faults }
  /-- Whoever asks for the module later, while it is in the table as it has been left, gets what has been
  left there if this counts as a module, and has all searches asked again if not. -/
  again : ∀ later : Machine H World, later.Ready →
    later.modules.getText name = m'.modules.getText name →
    (requireBy invoke searches name).run later =
      let asked := later.noted (.asked name later.modules)
      if (m'.modules.getText name).isTrue then
        .ok (m'.modules.getText name)
          (asked.noted (.answered name (m'.modules.getText name) later.modules))
      else
        (do
          let v ← conclude invoke name (walk searches asked).1
          noteModules (.answered name v)
          return v : Run H World Value).run (walk searches asked).2

theorem requireBy_run_of_present (hready : m.Ready) (htrue : (m.modules.getText name).isTrue = true) :
    (requireBy invoke searches name).run m = .ok (m.modules.getText name)
      ((m.noted (.asked name m.modules)).noted
        (.answered name (m.modules.getText name) m.modules)) := by
  have hplain : (m.noted (.asked name m.modules)).modules.metatable = none := hready.plain
  have hkept : (kept invoke name).run (m.noted (.asked name m.modules)) = _ := kept_run hplain invoke
  rw [requireBy, Run.bind_ok (noteModules_run _), Run.bind_ok hkept, Machine.modules_noted, htrue]
  rfl

theorem requireBy_run_of_absent (hready : m.Ready) (hfalse : (m.modules.getText name).isTrue = false) :
    (requireBy invoke searches name).run m = (do
      let v ← consultBy invoke name searches ""
      noteModules (.answered name v)
      return v : Run H World Value).run (m.noted (.asked name m.modules)) := by
  have hplain : (m.noted (.asked name m.modules)).modules.metatable = none := hready.plain
  have hkept : (kept invoke name).run (m.noted (.asked name m.modules)) = _ := kept_run hplain invoke
  rw [requireBy, Run.bind_ok (noteModules_run _), Run.bind_ok hkept, Machine.modules_noted, hfalse]
  rfl

/-- Asking again, after a module could not be had. -/
theorem requireBy_again {v : Value} (hready : m.Ready) (hv : m.modules.getText name = v) :
    (requireBy invoke searches name).run m =
      let asked := m.noted (.asked name m.modules)
      if v.isTrue then .ok v (asked.noted (.answered name v m.modules))
      else
        (do
          let v ← conclude invoke name (walk searches asked).1
          noteModules (.answered name v)
          return v : Run H World Value).run (walk searches asked).2 := by
  subst hv
  dsimp only
  cases htrue : (m.modules.getText name).isTrue
  · have hconsult := walk_consultBy invoke name searches ""
      (m.noted (.asked name m.modules))
    rw [Verdict.behind_empty] at hconsult
    rw [requireBy_run_of_absent hready htrue, EStateM.run_bind, hconsult]
    exact (EStateM.run_bind ..).symm
  · exact requireBy_run_of_present hready htrue

/-- Whatever the searches and the function of a module do, a module that somebody gets is what is kept
of it then, and where it cannot be had, nothing has been written but by them, so that all searches are
asked again. -/
theorem requireBy_answered_or_refused (hready : m.Ready)
    (hback : ∀ loader label found results back,
      walk searches (m.noted (.asked name m.modules)) = (.hit loader label, found) →
      (call invoke name label loader).run (found.noted (.called name loader label)) =
        .ok results back → back.Ready) :
    (∀ tables, require invoke tables name =
      requireBy invoke (Module.searches invoke tables name) name) ∧
    match (requireBy invoke searches name).run m with
    | .ok v m' => Answered invoke searches name m v m'
    | .error _ m' => Refused invoke searches name m m' := by
  refine ⟨fun tables => require_eq invoke tables name, ?_⟩
  cases htrue : (m.modules.getText name).isTrue
  · rcases consultBy_cases hback with ⟨loader, label, found, results, back, hwalk, hcall, hthere, hrun⟩ |
      ⟨stop, left, faults, hfails, hrun⟩
    · have hmodules := modules_settledBy hthere name (results.headD .nil)
      rw [requireBy_run_of_absent hready htrue, Run.bind_ok hrun]
      refine ⟨⟨?_, ?_, ?_⟩, hthere.sound.getText_settled_ne_nil name _, ?_, ?_, fun _ => ?_⟩
      · exact lt_of_lt_of_eq hthere.loaded (Machine.size_tables_setModules (back.noted _) _).symm
      · exact hmodules ▸ hthere.sound.settled name _
      · exact (congrArg Table.metatable hmodules).trans
          ((Table.metatable_settled _ _ _).trans hthere.plain)
      · exact congrArg (Table.getText · name) hmodules
      · simp [htrue]
      · exact ⟨loader, label, found, results, back, hwalk, hcall,
          hthere.sound.getText_settled name _, rfl⟩
    · rw [requireBy_run_of_absent hready htrue, Run.bind_error hrun]
      exact ⟨htrue, ⟨left, faults, hfails, rfl⟩, fun later => requireBy_again⟩
  · rw [requireBy_run_of_present hready htrue]
    refine ⟨(hready.noted _).noted _, ?_, rfl, fun _ => ⟨rfl, rfl⟩, ?_⟩
    · intro hnil
      simp [hnil, Value.isTrue] at htrue
    · simp [htrue]

/-- The function of a module leaves something in its place and returns nothing. -/
theorem requireBy_answered_of_own :
    let invoke : Invoke Empty World := fun _ _ _ => do
      Run.modifyTable 0 (·.setText "own" (.int 7))
      return []
    let searches := [pure (.missing "\n\tnowhere"), pure (.found (.function 0) "here")]
    prepared.Ready ∧
      (∀ loader label found results back,
        walk searches (prepared.noted (.asked "own" prepared.modules)) = (.hit loader label, found) →
        (call invoke "own" label loader).run (found.noted (.called "own" loader label)) =
          .ok results back → back.Ready) ∧
      ∃ m', (requireBy invoke searches "own").run prepared = .ok (.int 7) m' ∧
        Answered invoke searches "own" prepared (.int 7) m' := by
  intro invoke searches
  have hready : prepared.Ready := ⟨by decide, Table.sound_empty, rfl⟩
  have hback : ∀ loader label found results back,
      walk searches (prepared.noted (.asked "own" prepared.modules)) = (.hit loader label, found) →
      (call invoke "own" label loader).run (found.noted (.called "own" loader label)) =
        .ok results back → back.Ready := by
    intro loader label found results back hwalk hcall
    obtain ⟨-, rfl⟩ := Prod.mk.inj hwalk
    have hleft : (call invoke "own" label loader).run
        ((prepared.noted (.asked "own" prepared.modules)).noted (.called "own" loader label)) =
        .ok [] (((prepared.noted _).noted _).setTable 0 (prepared.modules.setText "own" (.int 7))) :=
      Run.bind_ok (Run.modifyTable_run 0 _)
    obtain ⟨-, rfl⟩ := EStateM.Result.ok.inj (hleft.symm.trans hcall)
    have hthere : 0 < prepared.tables.size := by decide
    have hmodules := Machine.tableAt_setTable hthere (prepared.modules.setText "own" (.int 7))
    have hsize := Machine.size_tables_setTable prepared 0 (prepared.modules.setText "own" (.int 7))
    refine ⟨lt_of_lt_of_eq hthere hsize.symm,
      hmodules ▸ Table.sound_empty.setText "own" (.int 7), ?_⟩
    exact (congrArg Table.metatable hmodules).trans (Table.metatable_setText _ _ _)
  refine ⟨hready, hback, ?_⟩
  have hcases := (requireBy_answered_or_refused hready hback).2
  have hvalue : (match (requireBy invoke searches "own").run prepared with
      | .ok v _ => decide (v = .int 7)
      | .error _ _ => false) = true := by
    decide +kernel
  cases hrun : (requireBy invoke searches "own").run prepared with
  | error stop m' => simp [hrun] at hvalue
  | ok v m' =>
    rw [hrun] at hcases hvalue
    obtain rfl := of_decide_eq_true hvalue
    exact ⟨m', rfl, hcases⟩

end Module

/-! ## Where what is kept is not the answer -/

namespace Session

/-- A module gives the table of modules a metatable that keeps nothing, and another one is a float that is
no number. -/
def stubborn : String :=
  "package.preload.guard = function()\n" ++
  "  setmetatable(package.loaded, { __newindex = function() end })\n" ++
  "  return 5\n" ++
  "end\n" ++
  "package.preload.nan = function() return 0/0 end\n"

/-- The machine of a session with these modules. -/
def stubbornStart : Machine (Service Empty) World :=
  [.setUp SearchPath.standard [] [], .exec "=stubborn" stubborn].foldl (Operation.left nofun)
    (.fresh { storage := {}, store := .memory 0 })

/-- A module that somebody gets may not be kept, and what is kept may be a float that is not the same
number as itself. -/
theorem not_answered_kept : stubbornStart.Ready ∧
    (∃ m', (Module.require (engine nofun).invoke ⟨7, 8⟩ "guard").run stubbornStart =
        .ok (.bool true) m' ∧ m'.modules.getText "guard" = .nil) ∧
    ∃ v m', (Module.require (engine nofun).invoke ⟨7, 8⟩ "nan").run stubbornStart = .ok v m' ∧
      v.rawEquals (m'.modules.getText "nan") = false := by
  -- all is evaluated at once, so that the session is set up only once
  have hruns : stubbornStart.modules.metatable = none ∧
      (match (Module.require (engine nofun).invoke ⟨7, 8⟩ "guard").run stubbornStart with
        | .ok v m' => decide (v = .bool true) && (m'.modules.getText "guard").isNil
        | .error _ _ => false) = true ∧
      (match (Module.require (engine nofun).invoke ⟨7, 8⟩ "nan").run stubbornStart with
        | .ok v m' => !v.rawEquals (m'.modules.getText "nan")
        | .error _ _ => false) = true := by
    decide +kernel
  obtain ⟨hplain, hguard, hnan⟩ := hruns
  have hready : stubbornStart.Ready := by
    have hreached : Reached nofun stubbornStart := (Reached.start rfl).after _
    have hsound := hreached.sound_and_orderly.1
    exact ⟨hsound.loaded, hsound.tables _, hplain⟩
  refine ⟨hready, ?_, ?_⟩
  · split at hguard
    case h_1 v m' hrun =>
      obtain ⟨hv, hnil⟩ := Bool.and_eq_true_iff.mp hguard
      obtain rfl := of_decide_eq_true hv
      exact ⟨m', hrun, Value.isNil_iff.mp hnil⟩
    case h_2 => cases hguard
  · split at hnan
    case h_1 v m' hrun => exact ⟨v, m', hrun, by simpa using hnan⟩
    case h_2 => cases hnan

end Session
end Sandbox
