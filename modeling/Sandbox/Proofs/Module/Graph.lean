import Mathlib.Data.Fintype.Card
import Mathlib.Logic.Relation
import Sandbox.Proofs.Module.Order
import Sandbox.Proofs.Module.Resolution

/-!
# Modules that need each other

A `Graph` says which modules a module needs. Its functions run as `Performs` says: they ask for what
they need, in any order and any number of times, work on their own otherwise, and return something. So
whatever a program asks for, all that is needed for it is loaded once, what a module needs before the
module itself, and everybody gets the same.
-/

namespace Sandbox

open Script Script.Run

variable {H α β : Type} {m m' m'' : Machine H World} {name : String} {result : Value}

namespace Script.Machine

/-- The table of modules is there, and no metatable is in the way. -/
structure Ready (m : Machine H World) : Prop where
  loaded : m.loaded < m.tables.size
  sound : m.modules.Sound
  plain : m.modules.metatable = none

/-- A module is there. -/
def has (m : Machine H World) (name : String) : Bool := (m.modules.getText name).isTrue

theorem Ready.noted (h : m.Ready) (e : Module.Event) : (m.noted e).Ready := ⟨h.loaded, h.sound, h.plain⟩

/-- The machine after what the function of a module has returned is kept and answered. -/
def concluded (m : Machine H World) (name : String) (result : Value) : Machine H World :=
  ((m.noted (.returned name result m.modules)).setModules (m.modules.settled name result)).noted
    (.answered name result (m.modules.settled name result))

theorem Ready.modules_concluded (h : m.Ready) (name : String) (result : Value) :
    (m.concluded name result).modules = m.modules.settled name result :=
  modules_setModules (m := m.noted (.returned name result m.modules)) h.loaded _

@[simp] theorem history_concluded (m : Machine H World) (name : String) (result : Value) :
    (m.concluded name result).world.history = m.world.history ++
      [.returned name result m.modules, .answered name result (m.modules.settled name result)] := by
  simp [concluded]

theorem Ready.concluded (h : m.Ready) (name : String) (result : Value) :
    (m.concluded name result).Ready := by
  refine ⟨?_, ?_, ?_⟩
  · exact lt_of_lt_of_eq h.loaded (size_tables_setModules (m.noted _) _).symm
  · rw [h.modules_concluded]
    exact h.sound.settled name result
  · rw [h.modules_concluded, Table.metatable_settled, h.plain]

/-- A module is what its function has returned, and others are as before. -/
theorem Ready.getText_concluded (h : m.Ready) (name : String) (hresult : result.isTrue)
    (other : String) : (m.concluded name result).modules.getText other =
      if other = name then result else m.modules.getText other := by
  have hnil : result.isNil = false := by
    cases result with
    | nil => cases hresult
    | _ => rfl
  rw [h.modules_concluded]
  split
  case isTrue heq =>
    rw [heq, h.sound.getText_settled, hnil]
    rfl
  case isFalse hne => exact h.sound.getText_settled_of_ne hne result

theorem Ready.has_concluded (h : m.Ready) (name : String) (hresult : result.isTrue) (other : String) :
    (m.concluded name result).has other = (other = name || m.has other) := by
  rw [has, h.getText_concluded name hresult]
  by_cases heq : other = name
  · simp [heq, hresult]
  · simp [heq, has]

end Script.Machine

namespace Module

/-- The module whose function an event has called. -/
@[simp] def Event.called? : Event → Option String
  | .called name _ _ => some name
  | _ => none

/-- The module whose function has returned with an event. -/
@[simp] def Event.returned? : Event → Option String
  | .returned name _ _ => some name
  | _ => none

/-- The modules whose functions have been called, one after the other. -/
def started (events : List Event) : List String := events.filterMap Event.called?

/-- The modules whose functions have returned, one after the other. -/
def finished (events : List Event) : List String := events.filterMap Event.returned?

@[simp] theorem started_append (a b : List Event) : started (a ++ b) = started a ++ started b :=
  List.filterMap_append

@[simp] theorem finished_append (a b : List Event) : finished (a ++ b) = finished a ++ finished b :=
  List.filterMap_append

@[simp] theorem started_nil : started [] = [] := rfl

@[simp] theorem finished_nil : finished [] = [] := rfl

@[simp] theorem started_cons (e : Event) (events : List Event) :
    started (e :: events) = e.called?.toList ++ started events := by
  cases e <;> rfl

@[simp] theorem finished_cons (e : Event) (events : List Event) :
    finished (e :: events) = e.returned?.toList ++ finished events := by
  cases e <;> rfl

/-- Modules that need each other, but none of them itself. -/
structure Graph where
  names : Finset String
  needs : String → List String
  closed : ∀ name ∈ names, ∀ other ∈ needs name, other ∈ names
  acyclic : ∀ name ∈ names, ¬Relation.TransGen (fun name other => other ∈ needs name) name name

namespace Graph

variable {g : Graph}

/-- Where a module always ranks above what it needs, none needs itself. -/
theorem acyclic_of_rank {names : Finset String} {needs : String → List String} {rank : String → Nat}
    (hclosed : ∀ name ∈ names, ∀ other ∈ needs name, other ∈ names)
    (hrank : ∀ name ∈ names, ∀ other ∈ needs name, rank other < rank name) :
    ∀ name ∈ names, ¬Relation.TransGen (fun name other => other ∈ needs name) name name := by
  intro name hname hcycle
  have hbelow (other : String) (h : Relation.TransGen (fun name other => other ∈ needs name) name other) :
      other ∈ names ∧ rank other < rank name := by
    induction h with
    | single hneeds => exact ⟨hclosed name hname _ hneeds, hrank name hname _ hneeds⟩
    | tail _ hneeds ih => exact ⟨hclosed _ ih.1 _ hneeds, (hrank _ ih.1 _ hneeds).trans ih.2⟩
  exact (hbelow name hcycle).2.false

/-- The first module needs the second, or a module that needs it, or is it. -/
def Reaches (g : Graph) : String → String → Prop :=
  Relation.ReflTransGen fun name other => other ∈ g.needs name

theorem Reaches.mem {other : String} (h : g.Reaches name other) (hname : name ∈ g.names) :
    other ∈ g.names := by
  induction h with
  | refl => exact hname
  | tail _ hneeds ih => exact g.closed _ ih _ hneeds

/-- A module is not needed by what it needs. -/
theorem not_reaches_of_needs {other : String} (hname : name ∈ g.names) (hneeds : other ∈ g.needs name) :
    ¬g.Reaches other name := fun h => g.acyclic name hname (.head' hneeds h)

/-- What holds of a module if it holds of what the module needs holds of all modules. -/
theorem induction {P : String → Prop}
    (step : ∀ name ∈ g.names, (∀ other ∈ g.needs name, P other) → P name) :
    ∀ name ∈ g.names, P name := by
  let above (a b : { name // name ∈ g.names }) : Prop :=
    Relation.TransGen (fun name other => other ∈ g.needs name) b.1 a.1
  have : IsTrans _ above := ⟨fun _ _ _ hab hbc => hbc.trans hab⟩
  have : Std.Irrefl above := ⟨fun a => g.acyclic a.1 a.2⟩
  have hwf : WellFounded above := Finite.wellFounded_of_trans_of_irrefl above
  intro name hname
  refine hwf.induction (C := fun a => P a.1) ⟨name, hname⟩ fun a ih => step a.1 a.2 fun other hneeds => ?_
  exact ih ⟨other, g.closed a.1 a.2 other hneeds⟩ (.single hneeds)

/-! ## What is loaded -/

/-- In a list of modules that have been loaded one after the other, what each one needs stands in front of
it or has been there before. -/
def InOrder (g : Graph) (before : String → Bool) (names : List String) : Prop :=
  ∀ first name rest, names = first ++ name :: rest → name ∈ g.names →
    ∀ other ∈ g.needs name, before other = true ∨ other ∈ first

theorem InOrder.append {before middle : String → Bool} {a b : List String} (ha : g.InOrder before a)
    (hb : g.InOrder middle b)
    (hmiddle : ∀ name ∈ g.names, middle name = true → before name = true ∨ name ∈ a) :
    g.InOrder before (a ++ b) := by
  intro first name rest hsplit hname other hneeds
  rcases List.append_eq_append_iff.mp hsplit with ⟨more, rfl, hrest⟩ | ⟨more, rfl, hrest⟩
  · have hother := hb more name rest hrest hname other hneeds
    have hmem := g.closed name hname other hneeds
    rcases hother with hthere | hlater
    · exact (hmiddle other hmem hthere).imp id fun h => List.mem_append_left _ h
    · exact .inr (List.mem_append_right _ hlater)
  · cases more with
    | nil => exact (hb [] name rest (by simpa using hrest.symm) hname other hneeds).elim (fun hthere =>
        (hmiddle other (g.closed name hname other hneeds) hthere).imp id (by simp)) (by simp)
    | cons head more =>
      obtain ⟨rfl, rfl⟩ := List.cons.inj hrest
      exact ha first name more rfl hname other hneeds

/-- Modules of a graph are loaded between two machines, with these events. -/
structure Loads (g : Graph) (m m' : Machine H World) (events : List Event) : Prop where
  ready : m'.Ready
  keeps : ∀ name ∈ g.names, m.has name → m'.modules.getText name = m.modules.getText name
  started : ∀ name ∈ g.names,
    (started events).count name = if m'.has name && !m.has name then 1 else 0
  finished : ∀ name ∈ g.names, (finished events).count name = (Module.started events).count name
  ordered : g.InOrder m.has (Module.finished events)
  answered : ∀ name ∈ g.names, ∀ v t, .answered name v t ∈ events →
    m'.has name ∧ v = m'.modules.getText name

/-- A machine goes on without touching the modules of a graph. -/
structure Quiet (g : Graph) (m m' : Machine H World) (events : List Event) : Prop where
  ready : m'.Ready
  keeps : ∀ name ∈ g.names, m'.modules.getText name = m.modules.getText name
  history : m'.world.history = m.world.history ++ events
  started : ∀ name ∈ Module.started events, name ∉ g.names
  finished : ∀ name ∈ Module.finished events, name ∉ g.names
  answered : ∀ name v t, .answered name v t ∈ events → name ∉ g.names

namespace Loads

variable {a b events : List Event}

theorem has (h : g.Loads m m' events) (hname : name ∈ g.names) (hthere : m.has name) : m'.has name := by
  rw [Machine.has, h.keeps name hname hthere]
  exact hthere

/-- A module is there afterwards if it was there or has been loaded. -/
theorem has_or_finished (h : g.Loads m m' events) (hname : name ∈ g.names) (hthere : m'.has name) :
    m.has name ∨ name ∈ Module.finished events := by
  by_cases hbefore : m.has name
  · exact .inl hbefore
  · have hcount := h.finished name hname
    rw [h.started name hname, if_pos (by simp [hthere, hbefore])] at hcount
    exact .inr (List.count_pos_iff.mp (by omega))

theorem trans (hab : g.Loads m m' a) (hbc : g.Loads m' m'' b) : g.Loads m m'' (a ++ b) where
  ready := hbc.ready
  keeps name hname hthere :=
    (hbc.keeps name hname (hab.has hname hthere)).trans (hab.keeps name hname hthere)
  started name hname := by
    have hfirst : m.has name → m'.has name := hab.has hname
    have hsecond : m'.has name → m''.has name := hbc.has hname
    rw [started_append, List.count_append, hab.started name hname, hbc.started name hname]
    cases h : m.has name <;> cases h' : m'.has name <;> cases h'' : m''.has name <;> simp_all
  finished name hname := by
    rw [finished_append, started_append, List.count_append, List.count_append, hab.finished name hname,
      hbc.finished name hname]
  ordered := by
    rw [finished_append]
    exact hab.ordered.append hbc.ordered fun name hname => hab.has_or_finished hname
  answered name hname v t hmem := by
    rcases List.mem_append.mp hmem with hmem | hmem
    · obtain ⟨hthere, rfl⟩ := hab.answered name hname v t hmem
      exact ⟨hbc.has hname hthere, (hbc.keeps name hname hthere).symm⟩
    · exact hbc.answered name hname v t hmem

/-- To leave the modules of the graph alone loads nothing. -/
theorem of_quiet (h : g.Quiet m m' events) : g.Loads m m' events := by
  have hhas (name : String) (hname : name ∈ g.names) : m'.has name = m.has name :=
    congrArg Value.isTrue (h.keeps name hname)
  have hstarted (name : String) (hname : name ∈ g.names) : (Module.started events).count name = 0 :=
    List.count_eq_zero.mpr fun hmem => h.started name hmem hname
  refine ⟨h.ready, fun name hname _ => h.keeps name hname, fun name hname => ?_, fun name hname => ?_,
    fun first name rest hsplit hname => ?_, fun name hname v t hmem => ?_⟩
  · rw [hstarted name hname, hhas name hname]
    simp
  · rw [hstarted name hname]
    exact List.count_eq_zero.mpr fun hmem => h.finished name hmem hname
  · exact absurd hname (h.finished name (by simp [hsplit]))
  · exact absurd hname (h.answered name v t hmem)

/-- To get a module that is there loads nothing. -/
theorem present (hready : m.Ready) (hthere : m.has name) :
    g.Loads m m [.asked name m.modules, .answered name (m.modules.getText name) m.modules] where
  ready := hready
  keeps _ _ _ := rfl
  started _ _ := by simp
  finished _ _ := by simp
  ordered first head rest hsplit := by simp at hsplit
  answered other _ v t hmem := by
    obtain ⟨rfl, rfl, -⟩ : other = name ∧ v = m.modules.getText name ∧ t = m.modules := by
      simpa using hmem
    exact ⟨hthere, rfl⟩

/-- What is noted loads nothing. -/
theorem noted (h : g.Loads m m' events) (e : Event) : g.Loads m (m'.noted e) events :=
  { h with ready := h.ready.noted e }

/-- The function of a module is called, and when all that the module needs has been loaded it returns
something, which is kept and answered. -/
theorem make (loader : Value) (label : String) (hbefore : g.Loads m m' a) (hbody : g.Loads m' m'' b)
    (habsent : m''.has name = false) (hneeds : ∀ other ∈ g.needs name, m''.has other)
    (hresult : result.isTrue) : g.Loads m (m''.concluded name result)
      (a ++ .called name loader label :: (b ++
        [.returned name result m''.modules, .answered name result (m''.modules.settled name result)])) := by
  have hboth := hbefore.trans hbody
  have htext := hbody.ready.getText_concluded name hresult
  have hhas := hbody.ready.has_concluded name hresult
  have hstarted (other : String) : (Module.started (a ++ .called name loader label :: (b ++
      [.returned name result m''.modules,
        .answered name result (m''.modules.settled name result)]))).count other =
        (Module.started (a ++ b)).count other + if name = other then 1 else 0 := by
    simp [List.count_cons]
    omega
  have hfinished : Module.finished (a ++ .called name loader label :: (b ++
      [.returned name result m''.modules,
        .answered name result (m''.modules.settled name result)])) =
        Module.finished (a ++ b) ++ [name] := by
    simp
  have hfirst (hmem : name ∈ g.names) : m.has name = false := by
    cases h : m.has name
    · rfl
    · rw [hboth.has hmem h] at habsent
      cases habsent
  refine ⟨hbody.ready.concluded name result, fun other hmem hthere => ?_, fun other hmem => ?_,
    fun other hmem => ?_, ?_, fun other hmem v t hanswer => ?_⟩
  · have hne : other ≠ name := by
      rintro rfl
      simp [hfirst hmem] at hthere
    rw [htext, if_neg hne, hboth.keeps other hmem hthere]
  · rw [hstarted, hboth.started other hmem, hhas]
    by_cases heq : name = other
    · subst heq
      simp [hfirst hmem, habsent]
    · simp [heq, Ne.symm heq]
  · rw [hstarted, hfinished, List.count_append, hboth.finished other hmem]
    simp [List.count_singleton, beq_iff_eq]
  · rw [hfinished]
    have hlast : g.InOrder m''.has [name] := by
      intro first head rest hsplit _ other hother
      obtain ⟨rfl, rfl⟩ : first = [] ∧ head = name := by
        cases first <;> simp_all
      exact .inl (hneeds other hother)
    exact hboth.ordered.append hlast fun other hmem => hboth.has_or_finished hmem
  · have hcases : .answered other v t ∈ a ++ b ∨ other = name ∧ v = result := by
      simp only [List.mem_append, List.mem_cons] at hanswer ⊢
      grind
    rw [hhas, htext]
    rcases hcases with hbefore | ⟨rfl, rfl⟩
    · obtain ⟨hthere, rfl⟩ := hboth.answered other hmem v t hbefore
      have hne : other ≠ name := by
        rintro rfl
        simp [habsent] at hthere
      simp [hthere, hne]
    · simp

end Loads

theorem quiet_asked (hready : m.Ready) (name : String) :
    g.Quiet m (m.noted (.asked name m.modules)) [.asked name m.modules] where
  ready := hready.noted _
  keeps _ _ := rfl
  history := rfl
  started := by simp
  finished := by simp
  answered := by simp

/-! ## Programs that ask for modules -/

/-- Where the modules of a graph are loaded: when a module can be asked for, and what remains of a machine
meanwhile. -/
structure Setting (H : Type) where
  tables : ModuleTables
  able : String → Invoke H World → Machine H World → Prop
  steady : Machine H World → Machine H World → Prop

/-- A program asks for modules, in any order and any number of times, but for some of them at least once.
Otherwise it works without touching the modules of the graph, and in the end it has done something. -/
inductive Performs (g : Graph) (s : Setting H) (asks : List String) (done : α → Machine H World → Prop) :
    List String → Run H World α → Machine H World → Prop
  | work {missing : List String} {act next : Run H World α} {m m' : Machine H World}
      {events : List Event} (hrun : act.run m = next.run m') (hquiet : g.Quiet m m' events)
      (hnext : Performs g s asks done missing next m') : Performs g s asks done missing act m
  | ask {missing : List String} {act : Run H World α} {m : Machine H World} {name : String}
      {invoke : Invoke H World} {next : Value → Run H World α} (hname : name ∈ asks)
      (hable : s.able name invoke m) (hrun : act.run m = (require invoke s.tables name >>= next).run m)
      (hnext : ∀ v m', (require invoke s.tables name).run m = .ok v m' → s.steady m m' →
        Performs g s asks done (missing.filter (· ≠ name)) (next v) m') :
      Performs g s asks done missing act m
  | finish {act : Run H World α} {m : Machine H World} {a : α} (hrun : act.run m = .ok a m)
      (hdone : done a m) : Performs g s asks done [] act m

namespace Performs

variable {s : Setting H} {asks missing fewer more : List String} {events : List Event}
  {before : β → Machine H World → Prop} {done : α → Machine H World → Prop}
  {first : Run H World β} {act act' : Run H World α} {next : β → Run H World α}

/-- Another program that runs in the same way. -/
theorem of_run (hrun : act'.run m = act.run m) (h : g.Performs s asks done missing act m) :
    g.Performs s asks done missing act' m := by
  cases h with
  | work hwork hquiet hnext => exact .work (hrun.trans hwork) hquiet hnext
  | ask hname hable hask hnext => exact .ask hname hable (hrun.trans hask) hnext
  | finish hfinish hdone => exact .finish (hrun.trans hfinish) hdone

theorem imp {done' : α → Machine H World → Prop} (h : g.Performs s asks done missing act m)
    (hdone : ∀ a m', done a m' → done' a m') : g.Performs s asks done' missing act m := by
  induction h with
  | work hrun hquiet _ ih => exact .work hrun hquiet ih
  | ask hname hable hrun _ ih => exact .ask hname hable hrun ih
  | finish hrun hfinish => exact .finish hrun (hdone _ _ hfinish)

/-- A program that asks for some modules asks for fewer. -/
theorem weaken (h : g.Performs s asks done missing act m) (hfewer : ∀ name ∈ fewer, name ∈ missing) :
    g.Performs s asks done fewer act m := by
  induction h generalizing fewer with
  | work hrun hquiet _ ih => exact .work hrun hquiet (ih hfewer)
  | ask hname hable hrun _ ih =>
    refine .ask hname hable hrun fun v m' hv hsteady => ih v m' hv hsteady fun other hmem => ?_
    obtain ⟨hmem, hne⟩ := List.mem_filter.mp hmem
    exact List.mem_filter.mpr ⟨hfewer other hmem, hne⟩
  | finish hrun hdone =>
    obtain rfl := List.eq_nil_iff_forall_not_mem.mpr fun name hmem => by simpa using hfewer name hmem
    exact .finish hrun hdone

/-- One program after the other. -/
theorem bind (h : g.Performs s asks before missing first m)
    (hnext : ∀ b m', before b m' → g.Performs s asks done more (next b) m') :
    g.Performs s asks done (missing ++ more) (first >>= next) m := by
  induction h with
  | work hrun hquiet _ ih =>
    refine .work ?_ hquiet ih
    rw [EStateM.run_bind, EStateM.run_bind, hrun]
  | @ask missing act m name invoke rest hname hable hrun _ ih =>
    have hask : (act >>= next).run m =
        (require invoke s.tables name >>= fun v => rest v >>= next).run m := by
      rw [← bind_assoc, EStateM.run_bind, EStateM.run_bind, hrun]
    refine .ask hname hable hask fun v m' hv hsteady => (ih v m' hv hsteady).weaken fun other hmem => ?_
    simp only [List.filter_append, List.mem_append, List.mem_filter] at hmem ⊢
    exact hmem.imp id And.left
  | finish hrun hbefore => exact (hnext _ _ hbefore).of_run (Run.bind_ok hrun)

/-- A program, and behind it one that needs to ask for nothing. -/
theorem bind_nil (h : g.Performs s asks before missing first m)
    (hnext : ∀ b m', before b m' → g.Performs s asks done [] (next b) m') :
    g.Performs s asks done missing (first >>= next) m :=
  (h.bind hnext).weaken fun _ hmem => List.mem_append_left [] hmem

/-- A program that begins without asking for anything. -/
theorem after {b : β} (hrun : first.run m = .ok b m') (hquiet : g.Quiet m m' events)
    (h : g.Performs s asks done missing (next b) m') :
    g.Performs s asks done missing (first >>= next) m := .work (Run.bind_ok hrun) hquiet h

end Performs

/-- Every module of the graph can be loaded: a searcher finds a function for it, and the function asks for
what the module needs and returns something other than nil and false. -/
structure Setting.Provides (s : Setting H) (g : Graph) : Prop where
  trans {m m' m'' : Machine H World} : s.steady m m' → s.steady m' m'' → s.steady m m''
  noted (m : Machine H World) (e : Event) : s.steady m (m.noted e)
  settled {m : Machine H World} : m.Ready → ∀ name ∈ g.names, ∀ result : Value,
    s.steady m (m.setModules (m.modules.settled name result))
  able {m m' : Machine H World} {name : String} {invoke : Invoke H World} :
    s.able name invoke m → s.steady m m' → s.able name invoke m'
  loads {m : Machine H World} {name : String} {invoke : Invoke H World} :
    name ∈ g.names → s.able name invoke m → m.Ready → m.has name = false →
      ∃ loader label m₁ events, Resolves invoke s.tables name Searcher.all m (.hit loader label) m₁ ∧
        g.Quiet m m₁ events ∧ s.steady m m₁ ∧
        Performs g s (g.needs name) (fun results m' => (results.headD .nil).isTrue ∧
          s.steady (m₁.noted (.called name loader label)) m') (g.needs name)
          (invoke none loader [.ofString name, .ofString label]) (m₁.noted (.called name loader label))

/-- To ask for one module after the other. -/
theorem Performs.mapM {s : Setting H} {asks names : List String} {invoke : Invoke H World}
    (hs : s.Provides g) (hasks : ∀ name ∈ names, name ∈ asks)
    (hable : ∀ name ∈ names, s.able name invoke m) :
    g.Performs s asks (fun _ _ => True) names (names.mapM (require invoke s.tables)) m := by
  induction names generalizing m with
  | nil => exact .finish rfl trivial
  | cons name rest ih =>
    rw [List.mapM_cons]
    refine .ask (hasks name (by simp)) (hable name (by simp)) rfl fun v m' _ hsteady => ?_
    have hrest := ih (m := m') (fun other hmem => hasks other (by simp [hmem]))
      fun other hmem => hs.able (hable other (by simp [hmem])) hsteady
    refine (hrest.bind_nil fun _ _ _ => .finish rfl trivial).weaken fun other hmem => ?_
    grind

/-- With a module, what it needs is there. -/
def Closed (g : Graph) (m : Machine H World) : Prop :=
  ∀ name ∈ g.names, m.has name → ∀ other ∈ g.needs name, m.has other

/-- A module has been loaded with all that is needed for it, and nothing else of the graph. -/
structure Brings (g : Graph) (names : List String) (m m' : Machine H World) (events : List Event) :
    Prop where
  loads : g.Loads m m' events
  history : m'.world.history = m.world.history ++ events
  closed : g.Closed m'
  only : ∀ name ∈ g.names, m'.has name → m.has name ∨ ∃ other ∈ names, g.Reaches other name

section Brings

variable {s : Setting H} {names asks missing : List String} {a b events : List Event}
  {done : α → Machine H World → Prop} {act : Run H World α} {invoke : Invoke H World}

theorem Closed.of_quiet (h : g.Closed m) (hquiet : g.Quiet m m' events) : g.Closed m' := by
  have hhas (name : String) (hname : name ∈ g.names) : m'.has name = m.has name :=
    congrArg Value.isTrue (hquiet.keeps name hname)
  intro name hname hthere other hneeds
  rw [hhas other (g.closed name hname other hneeds)]
  exact h name hname (by rwa [← hhas name hname]) other hneeds

theorem Closed.reaches (h : g.Closed m) {other : String} (hreaches : g.Reaches name other)
    (hname : name ∈ g.names) (hthere : m.has name) : m.has other := by
  induction hreaches with
  | refl => exact hthere
  | tail hbefore hneeds ih => exact h _ (Reaches.mem hbefore hname) ih _ hneeds

namespace Brings

theorem of_quiet (hclosed : g.Closed m) (h : g.Quiet m m' events) : g.Brings names m m' events where
  loads := .of_quiet h
  history := h.history
  closed := hclosed.of_quiet h
  only name hname hthere := .inl (by rwa [Machine.has, h.keeps name hname] at hthere)

theorem trans (hab : g.Brings names m m' a) (hbc : g.Brings names m' m'' b) :
    g.Brings names m m'' (a ++ b) where
  loads := hab.loads.trans hbc.loads
  history := by rw [hbc.history, hab.history, List.append_assoc]
  closed := hbc.closed
  only name hname hthere := (hbc.only name hname hthere).elim (hab.only name hname) .inr

theorem mono (h : g.Brings names m m' events) (hsub : ∀ name ∈ names, name ∈ asks) :
    g.Brings asks m m' events where
  loads := h.loads
  history := h.history
  closed := h.closed
  only name hname hthere := (h.only name hname hthere).imp id fun ⟨other, hmem, hreaches⟩ =>
    ⟨other, hsub other hmem, hreaches⟩

end Brings

/-- To ask for a module loads it with all that is needed for it. -/
def Loadable (g : Graph) (s : Setting H) (name : String) : Prop :=
  ∀ (invoke : Invoke H World) (m : Machine H World), s.able name invoke m → m.Ready → g.Closed m →
    ∃ v m' events, (require invoke s.tables name).run m = .ok v m' ∧ s.steady m m' ∧
      g.Brings [name] m m' events ∧ m'.has name

/-- A program that asks for modules which can be loaded loads them. -/
theorem Performs.brings (h : Performs g s asks done missing act m)
    (hloadable : ∀ name ∈ asks, g.Loadable s name) (hasks : ∀ name ∈ asks, name ∈ g.names)
    (hmissing : ∀ name ∈ missing, name ∈ asks) (hready : m.Ready) (hclosed : g.Closed m) :
    ∃ a m' events, act.run m = .ok a m' ∧ done a m' ∧ g.Brings asks m m' events ∧
      ∀ name ∈ missing, m'.has name := by
  induction h with
  | work hrun hquiet _ ih =>
    obtain ⟨a, m', events, hnext, hdone, hbrings, hthere⟩ :=
      ih hmissing hquiet.ready (hclosed.of_quiet hquiet)
    exact ⟨a, m', _, hrun.trans hnext, hdone, (Brings.of_quiet hclosed hquiet).trans hbrings, hthere⟩
  | @ask missing act m name invoke next hname hable hrun _ ih =>
    obtain ⟨v, m₁, first, hrequire, hsteady, hfirst, hhas⟩ :=
      hloadable name hname invoke m hable hready hclosed
    obtain ⟨a, m', later, hnext, hdone, hlater, hthere⟩ := ih v m₁ hrequire hsteady
      (fun other hmem => hmissing other (List.mem_of_mem_filter hmem)) hfirst.loads.ready hfirst.closed
    refine ⟨a, m', first ++ later, hrun.trans ((Run.bind_ok hrequire).trans hnext), hdone,
      (hfirst.mono (by simpa using hname)).trans hlater, fun other hmem => ?_⟩
    by_cases heq : other = name
    · exact hlater.loads.has (hasks other (hmissing other hmem)) (heq ▸ hhas)
    · exact hthere other (List.mem_filter.mpr ⟨hmem, by simpa using heq⟩)
  | @finish act m a hrun hdone =>
    have hquiet : g.Quiet m m [] := ⟨hready, fun _ _ => rfl, by simp, by simp, by simp, by simp⟩
    exact ⟨a, m, [], hrun, hdone, .of_quiet hclosed hquiet, by simp⟩

/-- The function of a module ends well, and the module is what the function has returned. -/
theorem make_run {loader : Value} {label : String} {results : List Value}
    (hcall : (invoke none loader [.ofString name, .ofString label]).run
      (m.noted (.called name loader label)) = .ok results m') (hready : m'.Ready)
    (hresult : (results.headD .nil).isTrue) :
    (do
      let v ← Module.make invoke name loader label
      noteModules (.answered name v)
      return v : Run H World Value).run m =
      .ok (results.headD .nil) (m'.concluded name (results.headD .nil)) := by
  have hself := hready.getText_concluded name hresult name
  rw [hready.modules_concluded, if_pos rfl] at hself
  have hsettle : (settle invoke name (results.headD .nil)).run m' = _ :=
    settle_run hready.plain invoke hready.loaded (results.headD .nil)
  rw [hready.sound.fieldOr_put, hself] at hsettle
  have hmake : (Module.make invoke name loader label).run m = .ok (results.headD .nil)
      ((m'.noted (.returned name (results.headD .nil) m'.modules)).setModules
        (m'.modules.settled name (results.headD .nil))) := by
    rw [Module.make, Run.bind_ok (note_run _)]
    exact (Run.bind_ok (Run.guarded_ok invoke hcall)).trans hsettle
  have hmodules := hready.modules_concluded name (results.headD .nil)
  rw [Run.bind_ok hmake, Run.bind_ok (noteModules_run _)]
  rw [Machine.concluded, Machine.modules_noted] at hmodules
  rw [hmodules]
  rfl

/-- Whoever asks for a module that is there gets it. -/
theorem require_present (tables : ModuleTables) (hready : m.Ready) (hthere : m.has name) :
    (require invoke tables name).run m = .ok (m.modules.getText name)
      ((m.noted (.asked name m.modules)).noted
        (.answered name (m.modules.getText name) m.modules)) := by
  have hkept : (kept invoke name).run (m.noted (.asked name m.modules)) = _ :=
    kept_run (m := m.noted _) hready.plain invoke
  rw [require, Run.bind_ok (noteModules_run _), Run.bind_ok hkept]
  have htrue : (m.modules.getText name).isTrue = true := hthere
  simp only [Machine.modules_noted, htrue, if_true]
  rfl

theorem Brings.present (hready : m.Ready) (hclosed : g.Closed m) (hthere : m.has name) :
    g.Brings names m ((m.noted (.asked name m.modules)).noted
        (.answered name (m.modules.getText name) m.modules))
      [.asked name m.modules, .answered name (m.modules.getText name) m.modules] where
  loads := ((Loads.present hready hthere).noted _).noted _
  history := by simp
  closed := hclosed
  only _ _ h := .inl h

/-- A module that is not there is loaded if everything can be loaded that it needs. -/
theorem loadable_of_needs (hs : s.Provides g) (hname : name ∈ g.names)
    (hneeds : ∀ other ∈ g.needs name, g.Loadable s other) : g.Loadable s name := by
  intro invoke m hable hready hclosed
  cases hthere : m.has name
  case true =>
    exact ⟨_, _, _, require_present s.tables hready hthere,
      hs.trans (hs.noted _ _) (hs.noted _ _), .present hready hclosed hthere, hthere⟩
  case false =>
    have hasked : s.steady m (m.noted (.asked name m.modules)) := hs.noted _ _
    obtain ⟨loader, label, m₁, found, hresolves, hquiet, hsteady, hperforms⟩ :=
      hs.loads hname (hs.able hable hasked) (hready.noted _) hthere
    have hclosed₁ : g.Closed m₁ := Closed.of_quiet (m := m.noted _) hclosed hquiet
    obtain ⟨results, m₂, needed, hcall, ⟨hresult, hsteady₂⟩, hbrings, hhas⟩ :=
      hperforms.brings hneeds (g.closed name hname) (fun _ h => h) (hquiet.ready.noted _) hclosed₁
    have hready₂ := hbrings.loads.ready
    have habsent : m₂.has name = false := by
      by_contra h
      rcases hbrings.only name hname (by simpa using h) with hbefore | ⟨other, hmem, hreaches⟩
      · rw [Machine.has, Machine.modules_noted, hquiet.keeps name hname] at hbefore
        exact absurd hbefore (by simpa [Machine.has] using hthere)
      · exact g.not_reaches_of_needs hname hmem hreaches
    have hlooked : (Module.kept invoke name).run (m.noted (.asked name m.modules)) = _ :=
      kept_run (m := m.noted _) hready.plain invoke
    have hbefore : g.Loads m (m₁.noted (.called name loader label)) (.asked name m.modules :: found) :=
      ((Loads.of_quiet (quiet_asked hready name)).trans (.of_quiet hquiet)).noted _
    have hconcluded := hready₂.has_concluded name hresult
    have hrun := (hresolves.require_run hlooked hthere).trans (make_run hcall hready₂ hresult)
    refine ⟨_, _, _, hrun, ?_, ⟨hbefore.make loader label hbrings.loads habsent hhas hresult, ?_, ?_, ?_⟩, ?_⟩
    · have hkept := hs.settled (m := m₂.noted (.returned name (results.headD .nil) m₂.modules))
        (hready₂.noted _) name hname (results.headD .nil)
      exact hs.trans hasked (hs.trans hsteady (hs.trans (hs.noted _ _) (hs.trans hsteady₂
        (hs.trans (hs.noted _ _) (hs.trans hkept (hs.noted _ _))))))
    · rw [Machine.history_concluded, hbrings.history, Machine.history_noted, hquiet.history]
      simp
    · intro other hmem hother needed hneeds
      rw [hconcluded] at hother ⊢
      by_cases heq : other = name
      · simp [hhas needed (heq ▸ hneeds)]
      · simp [hbrings.closed other hmem (by simpa [heq] using hother) needed hneeds]
    · intro other hmem hother
      rw [hconcluded] at hother
      by_cases heq : other = name
      · exact .inr ⟨name, by simp, heq ▸ .refl⟩
      · refine (hbrings.only other hmem (by simpa [heq] using hother)).imp (fun h => ?_) ?_
        · rwa [Machine.has, Machine.modules_noted, hquiet.keeps other hmem] at h
        · rintro ⟨needed, hneeds, hreaches⟩
          exact ⟨name, by simp, .head hneeds hreaches⟩
    · rw [hconcluded]
      simp

/-- All modules of a graph can be loaded. -/
theorem loadable (hs : s.Provides g) : ∀ name ∈ g.names, g.Loadable s name :=
  g.induction fun _ hname ih => loadable_of_needs hs hname ih

end Brings

end Graph
end Module
end Sandbox
