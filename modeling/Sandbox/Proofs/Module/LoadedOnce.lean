import Sandbox.Proofs.Module.Once
import Sandbox.Proofs.Module.Shelf

/-!
# Modules that are loaded once

Whatever a program asks for from a graph of modules, each function runs once if its module is needed, and
what a module needs is made first. The scripts of a library are such a graph.
-/

namespace Sandbox

open Script Script.Run

namespace Module.Graph

variable {H α : Type} {m m' : Machine H World} {g : Graph} {s : Setting H} {asks : List String}
  {done : α → Machine H World → Prop} {act : Run H World α}

/-- Programs that ask for modules of a graph of which none is there end well. The function of a module
is called once if a module that is asked for needs it, and never otherwise, after everything that the
module needs has been made, and whoever asks for a module gets the same. -/
theorem performs_once (hs : s.Provides g) (hready : m.Ready)
    (habsent : ∀ name ∈ g.names, m.has name = false) (hasks : ∀ name ∈ asks, name ∈ g.names)
    (hact : g.Performs s asks done asks act m) :
    ∃ a m' events, act.run m = .ok a m' ∧ done a m' ∧
      m'.world.history = m.world.history ++ events ∧ ∀ name ∈ g.names,
        ((∃ asked ∈ asks, g.Reaches asked name) →
          (started events).count name = 1 ∧ (finished events).count name = 1) ∧
        ((¬∃ asked ∈ asks, g.Reaches asked name) →
          (started events).count name = 0 ∧ (finished events).count name = 0) ∧
        (∀ first rest, finished events = first ++ name :: rest →
          ∀ other ∈ g.needs name, other ∈ first) ∧
        ∀ v t, .answered name v t ∈ events → v = m'.modules.getText name := by
  have hclosed : g.Closed m := fun name hname hthere => by simp [habsent name hname] at hthere
  obtain ⟨a, m', events, hrun, hdone, hbrings, hthere⟩ := hact.brings
    (fun name hmem => loadable hs name (hasks name hmem)) hasks (fun _ h => h) hready hclosed
  refine ⟨a, m', events, hrun, hdone, hbrings.history, fun name hname => ?_⟩
  have hstarted := hbrings.loads.started name hname
  have hfinished := hbrings.loads.finished name hname
  rw [hfinished, hstarted, habsent name hname]
  refine ⟨fun ⟨asked, hmem, hreaches⟩ => ?_, fun hnone => ?_, fun first rest hsplit other hneeds => ?_,
    fun v t hmem => (hbrings.loads.answered name hname v t hmem).2⟩
  · have := hbrings.closed.reaches hreaches (hasks asked hmem) (hthere asked hmem)
    simp [this]
  · have : m'.has name = false := by
      by_contra h
      rcases hbrings.only name hname (by simpa using h) with hbefore | hreaches
      · simp [habsent name hname] at hbefore
      · exact hnone hreaches
    simp [this]
  · exact (hbrings.loads.ordered first name rest hsplit hname other hneeds).resolve_left
      (by simp [habsent other (g.closed name hname other hneeds)])

/-! ## Two modules that need the same -/

/-- What the modules need. -/
def diamondNeeds : List (String × List String) :=
  [("top", ["left", "right", "left"]), ("left", ["base"]), ("right", ["base"]), ("base", []),
    ("lone", [])]

/-- How many modules need each other below a module. -/
def diamondRank (name : String) : Nat :=
  ([("top", 2), ("left", 1), ("right", 1)].lookup name).getD 0

/-- The names of the modules. -/
def diamondNames : Finset String := {"top", "left", "right", "base", "lone"}

theorem diamond_closed : ∀ name ∈ diamondNames,
    ∀ other ∈ (diamondNeeds.lookup name).getD [], other ∈ diamondNames := by
  decide +kernel

theorem diamondRank_lt : ∀ name ∈ diamondNames,
    ∀ other ∈ (diamondNeeds.lookup name).getD [], diamondRank other < diamondRank name := by
  decide +kernel

/-- A module that needs two others, both of which need the same, and a module that nobody needs. -/
def diamond : Graph where
  names := diamondNames
  needs name := (diamondNeeds.lookup name).getD []
  closed := diamond_closed
  acyclic := acyclic_of_rank diamond_closed diamondRank_lt

/-- The scripts of the modules. -/
def diamondLibrary : List (String × SourceFile) :=
  [("top", ⟨"top.lua", "require 'left'\nrequire 'right'\nrequire 'left'\nreturn {}\n"⟩),
    ("left", ⟨"left.lua", "require 'base'\nreturn {}\n"⟩),
    ("right", ⟨"right.lua", "require 'base'\nreturn {}\n"⟩),
    ("base", ⟨"base.lua", "return {}\n"⟩),
    ("lone", ⟨"lone.lua", "return {}\n"⟩)]

/-- A session with these scripts in its library, at its start. -/
def diamondStart : Machine (Service Empty) World :=
  (Session.Operation.setUp SearchPath.standard [] []).left nofun
    (.fresh { storage := {}, store := .memory 0, library := diamondLibrary })

theorem diamondStart_facts : let m := diamondStart
    m.modules.metatable = none ∧ m.frames.length = 0 ∧ m.globals = 0 ∧ m.loaded = 1 ∧ 8 < m.tables.size ∧
      (m.tableAt 0).getText "require" = .function 82 ∧ m.functions[82]?.bind requires? = some ⟨7, 8⟩ ∧
      (m.tableAt 8).metatable = none ∧ ∀ name ∈ diamond.names,
        m.has name = false ∧ (m.tableAt 8).getText name = .nil ∧
        (m.world.library.lookup name).bind (fun file => Function.needs?
          (Chunk.compileText s!"@{file.name}" (Chunk.stripPreamble file.code.toUTF8))) =
            some (diamond.needs name) := by
  decide +kernel

/-- The tables of the module system in this session. -/
def diamondTables : ModuleTables := ⟨7, 8⟩

/-- How the host calls functions in this session. -/
def diamondInvoke : Invoke (Service Empty) World := (Session.engine nofun).invoke

theorem diamondStart_ready : diamondStart.Ready := by
  have hreached : Session.Reached nofun diamondStart :=
    .operate (.start rfl) (.setUp SearchPath.standard [] [])
  have hsound := hreached.sound_and_orderly.1
  exact ⟨hsound.loaded, hsound.tables _, diamondStart_facts.1⟩

theorem diamondStart_shelf : Shelf diamond diamondTables diamondStart := by
  obtain ⟨-, -, hglobals, hloaded, hsize, hrequire, hfunction, hplain, hnames⟩ := diamondStart_facts
  refine ⟨by omega, by omega, hsize, by rw [hloaded]; decide, ⟨82, ?_, hfunction⟩, hplain,
    fun name hname => (hnames name hname).2.1, fun name hname => ?_⟩
  · rw [hglobals, hrequire]
  · exact Option.bind_eq_some_iff.mp (hnames name hname).2.2

theorem diamond_able (name : String) (hname : name ∈ diamond.names) :
    (shelves nofun diamond diamondTables diamondRank).able name diamondInvoke diamondStart := by
  have hrank : ∀ name ∈ diamond.names, diamondRank name ≤ 2 := by decide +kernel
  have hframes : diamondStart.nesting = 0 := by
    rw [Machine.nesting, List.eq_nil_of_length_eq_zero diamondStart_facts.2.1]
    rfl
  have := hrank name hname
  refine ⟨diamondStart_shelf, ?_, Engine.depthLimit, ?_, rfl⟩
  · rw [hframes, Engine.nestingLimit]
    omega
  · rw [Engine.depthLimit]
    omega

/-- No module needs the last one. -/
theorem not_reaches_lone {name : String} (hname : name ≠ "lone") : ¬diamond.Reaches name "lone" := by
  have hneeds : ∀ entry ∈ diamondNeeds, "lone" ∉ entry.2 := by decide +kernel
  intro h
  rcases h.cases_tail with heq | ⟨other, -, hmem⟩
  · exact hname heq.symm
  · change "lone" ∈ (diamondNeeds.lookup other).getD [] at hmem
    cases hlookup : diamondNeeds.lookup other with
    | none => simp [hlookup] at hmem
    | some needs =>
      rw [hlookup, Option.getD_some] at hmem
      obtain ⟨before, after, hsplit, -⟩ := List.lookup_eq_some_iff.mp hlookup
      exact hneeds (other, needs) (by simp [hsplit]) hmem

/-- The session asks for two of the modules, for one of them twice. What both need is made once, and the
module that nobody needs never. -/
theorem performs_once_of_diamond :
    let s := shelves nofun diamond diamondTables diamondRank
    let asks := ["right", "top", "right"]
    let act := asks.mapM (require diamondInvoke diamondTables)
    s.Provides diamond ∧ diamondStart.Ready ∧
      (∀ name ∈ diamond.names, diamondStart.has name = false) ∧ (∀ name ∈ asks, name ∈ diamond.names) ∧
      diamond.Performs s asks (fun _ _ => True) asks act diamondStart ∧
      ∃ values m' events, act.run diamondStart = .ok values m' ∧
        m'.world.history = diamondStart.world.history ++ events ∧
        (started events).count "base" = 1 ∧ (started events).count "lone" = 0 ∧
        (∀ first rest, finished events = first ++ "top" :: rest → "left" ∈ first ∧ "right" ∈ first) ∧
        ∀ v t, .answered "right" v t ∈ events → v = m'.modules.getText "right" := by
  intro s asks act
  have hprovides : s.Provides diamond := shelves_provides diamondRank_lt
  have hasks : ∀ name ∈ asks, name ∈ diamond.names := by decide +kernel
  have habsent : ∀ name ∈ diamond.names, diamondStart.has name = false :=
    fun name hname => (diamondStart_facts.2.2.2.2.2.2.2.2 name hname).1
  have hperforms : diamond.Performs s asks (fun _ _ => True) asks act diamondStart :=
    .mapM hprovides (fun _ h => h) fun name hname => diamond_able name (hasks name hname)
  refine ⟨hprovides, diamondStart_ready, habsent, hasks, hperforms, ?_⟩
  obtain ⟨values, m', events, hrun, -, hhistory, hall⟩ :=
    performs_once hprovides diamondStart_ready habsent hasks hperforms
  have hbase : diamond.Reaches "right" "base" := .single (by decide +kernel)
  refine ⟨values, m', events, hrun, hhistory, ?_, ?_, fun first rest hsplit => ⟨?_, ?_⟩, ?_⟩
  · exact ((hall "base" (by decide +kernel)).1 ⟨"right", by simp [asks], hbase⟩).1
  · refine ((hall "lone" (by decide +kernel)).2.1 ?_).1
    rintro ⟨asked, hmem, hreaches⟩
    refine not_reaches_lone ?_ hreaches
    rintro rfl
    simp [asks] at hmem
  · exact (hall "top" (by decide +kernel)).2.2.1 first rest hsplit "left" (by decide +kernel)
  · exact (hall "top" (by decide +kernel)).2.2.1 first rest hsplit "right" (by decide +kernel)
  · exact (hall "right" (by decide +kernel)).2.2.2

end Module.Graph
end Sandbox
