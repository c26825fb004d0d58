import Sandbox.Proofs.Module.Shelf
import Sandbox.Proofs.Script.Limit

/-!
# Modules that need each other in a ring

What is kept of a module is kept when its function has returned, and nothing is noted of it before. So a
module that needs itself, over others or directly, is made anew whenever it is asked for, until the machine
refuses to call its function. The error of this call goes through all of the others: none of the functions
returns, and nothing is kept.
-/

namespace Sandbox

open Script Script.Run

/-! ## Scripts that begin with a module -/

namespace Script

variable {H W : Type} {m : Machine H W}

/-- The module for which a statement asks before anything else. -/
def Statement.begins? : Statement → Option String
  | .call e | .locals _ _ none [e] => (Statement.call e).asks?
  | _ => none

/-- The module for which a unit of code asks before anything else. -/
def Function.begins? (compiled : Except Fault (Except Chunk.Refusal Function)) : Option String :=
  match compiled with
  | .ok (.ok (.mk _ 0 _ (s :: _))) => s.begins?
  | _ => none

end Script

namespace Module

variable {E α β : Type} {m m₁ m₂ m' : Machine (Service E) World} {name : String}

/-- Modules none of which needs another one. -/
def Graph.edgeless (names : Finset String) : Graph where
  names
  needs _ := []
  closed _ _ _ h := by cases h
  acyclic _ _ h := by
    obtain ⟨_, -, hneeds⟩ := Relation.TransGen.tail'_iff.mp h
    cases hneeds

/-- Modules each of which needs one of them. -/
structure Ring where
  names : Finset String
  next : String → String
  closed : ∀ name ∈ names, next name ∈ names

namespace Ring

variable {r : Ring} {called more : List String} {events later : List Event}
  {act : Run (Service E) World α}

/-! ## What failures leave -/

/-- Between two machines functions of these modules are called, one after the other. None of them returns,
and nothing is kept. -/
structure Leaves (r : Ring) (called : List String) (m m' : Machine (Service E) World)
    (events : List Event) : Prop where
  history : m'.world.history = m.world.history ++ events
  keeps : ∀ name ∈ r.names, m'.modules.getText name = m.modules.getText name
  started : (started events).filter (· ∈ r.names) = called
  finished : ∀ name ∈ finished events, name ∉ r.names

namespace Leaves

theorem refl (m : Machine (Service E) World) : r.Leaves [] m m [] :=
  ⟨by rw [List.append_nil], fun _ _ => rfl, rfl, by simp⟩

theorem of_quiet (h : (Graph.edgeless r.names).Quiet m m' events) : r.Leaves [] m m' events where
  history := h.history
  keeps := h.keeps
  started := List.filter_eq_nil_iff.mpr fun name hname => by
    have hother : name ∉ r.names := h.started name hname
    simpa using hother
  finished := h.finished

/-- To call the function of a module is noted before anything else. -/
theorem noted (hname : name ∈ r.names) (loader : Value) (label : String)
    (m : Machine (Service E) World) :
    r.Leaves [name] m (m.noted (.called name loader label)) [.called name loader label] where
  history := rfl
  keeps _ _ := rfl
  started := by simp [hname]
  finished := by simp

theorem trans (h : r.Leaves called m m₁ events) (h' : r.Leaves more m₁ m₂ later) :
    r.Leaves (called ++ more) m m₂ (events ++ later) where
  history := by rw [h'.history, h.history, List.append_assoc]
  keeps name hname := (h'.keeps name hname).trans (h.keeps name hname)
  started := by rw [started_append, List.filter_append, h.started, h'.started]
  finished name hname := by
    rw [finished_append] at hname
    exact (List.mem_append.mp hname).elim (h.finished name) (h'.finished name)

/-- Only the table of modules and the history are looked at. -/
theorem congr (h : r.Leaves called m m' events) (hmodules : m₁.modules = m.modules)
    (hmodules' : m₂.modules = m'.modules) (hhistory : m₁.world.history = m.world.history)
    (hhistory' : m₂.world.history = m'.world.history) : r.Leaves called m₁ m₂ events where
  history := by rw [hhistory', hhistory, h.history]
  keeps name hname := by rw [hmodules', hmodules, h.keeps name hname]
  started := h.started
  finished := h.finished

end Leaves

/-- A run fails after it has called the functions of these modules, one after the other. The error is the
one of the limit of nested calls, unless texts have got another text. -/
def Fails (r : Ring) (called : List String) (act : Run (Service E) World α)
    (m : Machine (Service E) World) : Prop :=
  ∃ id m' events, act.run m = .error (.raised (.fault id)) m' ∧
    (m'.TextsPlain → m'.faults[id]? = some Engine.refusal) ∧ r.Leaves called m m' events

namespace Fails

theorem of_comesTo {act' : Run (Service E) World β} (hcomes : ComesTo act' m act m')
    (hleaves : r.Leaves called m m' events) (h : r.Fails more act m') : r.Fails (called ++ more) act' m := by
  obtain ⟨id, m'', later, hfails, hfault, hlater⟩ := h
  exact ⟨id, m'', events ++ later, hcomes.error hfails, hfault, hleaves.trans hlater⟩

/-- The host fails where it gets a fault. -/
theorem of_fault {act : Run (Service E) World (Except Fault α)} {fault : Fault}
    (hrun : act.run m = .ok (.error fault) m') (hfault : m'.TextsPlain → fault = Engine.refusal)
    (hleaves : r.Leaves called m m' events) : r.Fails called (do orFail (← act)) m := by
  refine ⟨m'.faults.size, { m' with faults := m'.faults.push fault }, events, bind_ok hrun, ?_,
    hleaves.congr rfl rfl rfl rfl⟩
  intro hplain
  rw [Array.getElem?_push_size, hfault hplain]

/-- What fails for the host fails for whoever has called the host. -/
theorem orFail_guarded (h : r.Fails called act m) (invoke : Invoke (Service E) World) :
    r.Fails called (do orFail (← guarded invoke act)) m := by
  obtain ⟨id, m', events, hrun, hfault, hleaves⟩ := h
  refine .of_fault (guarded_fault hrun invoke) (fun hplain => ?_) (hleaves.congr rfl rfl rfl rfl)
  rw [Array.getD_eq_getD_getElem?, hfault hplain, Option.getD_some]

end Fails

/-! ## Rings that are loaded -/

/-- Where the modules of a ring are loaded, and how many calls deeper a module asks for the next one. -/
structure Setting (E : Type) where
  extension : Extension E
  tables : ModuleTables
  able : Machine (Service E) World → Prop
  cost : Nat

namespace Setting

/-- The calls of a setting to a depth. -/
def call (s : Setting E) (depth : Nat) : Invoke (Service E) World :=
  (Session.engine s.extension).call depth

/-- A run comes to a call of `require` in a script, and whatever is behind this call, no error of it is
caught there. -/
inductive Asks (s : Setting E) (name : String) (nesting depth : Nat) (act : Run (Service E) World α)
    (m m' : Machine (Service E) World) : Prop
  | intro {site : Site} {id : Nat} {text : ByteArray} {f : Frame} {rest : List Frame}
      (hcomes : ComesTo act m (s.call (depth + 1) (some site) (.function id) [.text text]) m')
      (hsite : site.kind ≠ "metamethod") (htext : text.toText = .ok name)
      (hfunction : m'.functions[id]? = some (.host (.require s.tables)))
      (hframes : m'.frames = f :: rest) (hscript : f.chunk.isSome) (hnesting : f.nesting = nesting) :
      Asks s name nesting depth act m m'

/-- The function of each module of a ring is found, and a call of it comes to a call of `require` for the
next module. -/
structure Provides (s : Setting E) (r : Ring) : Prop where
  noted {m : Machine (Service E) World} (e : Event) : s.able m → s.able (m.noted e)
  frames {m : Machine (Service E) World} (frames : List Frame) : s.able m → s.able { m with frames }
  loads {m : Machine (Service E) World} {name : String} (depth : Nat) :
    name ∈ r.names → s.able m → m.Ready → m.has name = false →
      ∃ id label m₁ events,
        Resolves (s.call depth) s.tables name Searcher.all m (.hit (.function id) label) m₁ ∧
        (Graph.edgeless r.names).Quiet m m₁ events ∧ s.able m₁ ∧ m₁.frames = m.frames ∧
        (m.IsHosted → m.nesting < Engine.nestingLimit → s.cost ≤ depth →
          ∃ deeper m₂ later, depth ≤ deeper + s.cost ∧
            s.Asks (r.next name) (m.nesting + 1) deeper
              (s.call depth none (.function id) [.ofString name, .ofString label])
              (m₁.noted (.called name (.function id) label)) m₂ ∧
            (Graph.edgeless r.names).Quiet (m₁.noted (.called name (.function id) label)) m₂ later ∧
            s.able m₂)

end Setting

variable {s : Setting E} {depth nesting : Nat}

/-- Where `require` fails in a frame of its own, so does a call of it. -/
theorem Fails.of_require {site : Option Site} {id : Nat} {text : ByteArray}
    (hcalled : (Engine.nestingOf site).run m = .ok nesting m)
    (hfunction : m.functions[id]? = some (.host (.require s.tables))) (htext : text.toText = .ok name)
    (h : ∀ frame : Frame, frame.chunk = none → frame.nesting = nesting →
      r.Fails called (require (s.call depth) s.tables name) { m with frames := frame :: m.frames }) :
    r.Fails called (s.call (depth + 1) site (.function id) [.text text]) m := by
  let frame : Frame := ⟨.function id, none, 0, site, nesting⟩
  obtain ⟨fault, m', events, hfails, hfault, hleaves⟩ := h frame rfl rfl
  refine ⟨fault, m', events, ?_, hfault, hleaves.congr rfl rfl rfl rfl⟩
  have hframe : ComesTo (inFrame frame do return [← require (s.call depth) s.tables name]) m
      (require (s.call depth) s.tables name) { m with frames := frame :: m.frames } :=
    .inFrame ((ComesTo.refl _ _).bind _)
  exact (hframe.of_run (call_require_run s.extension hcalled hfunction htext)).error hfails

/-- So does whatever comes to a call of it. -/
theorem Fails.of_asks (hasks : s.Asks name nesting depth act m m')
    (hleaves : r.Leaves called m m' events)
    (h : ∀ frame : Frame, frame.chunk = none → frame.nesting = nesting →
      r.Fails more (require (s.call depth) s.tables name) { m' with frames := frame :: m'.frames }) :
    r.Fails (called ++ more) act m := by
  obtain ⟨hcomes, hsite, htext, hfunction, hframes, hscript, rfl⟩ := hasks
  have hcalled := Engine.nestingOf_run_of_script hframes hscript hsite
  exact .of_comesTo hcomes hleaves (.of_require hcalled hfunction htext h)

/-- Where a module is not there and its function fails, so does `require`. -/
theorem Fails.of_function {invoke : Invoke (Service E) World} {tables : ModuleTables} {loader : Value}
    {label : String} (hname : name ∈ r.names) (hready : m.Ready) (habsent : m.has name = false)
    (hresolves : Resolves invoke tables name Searcher.all (m.noted (.asked name m.modules))
      (.hit loader label) m₁)
    (hquiet : (Graph.edgeless r.names).Quiet (m.noted (.asked name m.modules)) m₁ events)
    (h : r.Fails called (do Run.orFail (← Run.callGuarded invoke loader [.ofString name, .ofString label]))
      (m₁.noted (.called name loader label))) :
    r.Fails (name :: called) (require invoke tables name) m := by
  have hkept : (kept invoke name).run (m.noted (.asked name m.modules)) =
      .ok (m.modules.getText name) (m.noted (.asked name m.modules)) :=
    kept_run (m := m.noted _) hready.plain invoke
  have hrun : (require invoke tables name).run m = (do
      let results ← (do Run.orFail (← Run.callGuarded invoke loader [.ofString name, .ofString label]))
      let v ← settle invoke name (results.headD .nil)
      noteModules (.answered name v)
      return v : Run (Service E) World Value).run (m₁.noted (.called name loader label)) := by
    rw [hresolves.require_run hkept habsent]
    simp only [conclude, make, bind_assoc]
    exact bind_ok (note_run _)
  have hbefore := (Leaves.of_quiet (Graph.quiet_asked hready name)).trans (.of_quiet hquiet)
  exact .of_comesTo ⟨_, hrun⟩ (hbefore.trans (.noted hname loader label m₁)) h

/-- Where calls may be nested some steps deeper, the functions are called round the ring, one for each of
these steps and the last one in vain. -/
theorem fails (hs : s.Provides r) (room : Nat) (hname : name ∈ r.names) (hready : m.Ready)
    (hable : s.able m) (hhosted : m.IsHosted) (habsent : ∀ name ∈ r.names, m.has name = false)
    (hroom : Engine.nestingLimit - m.nesting = room) (hdepth : s.cost * room < depth) :
    r.Fails (List.iterate r.next name (room + 1)) (require (s.call depth) s.tables name) m := by
  induction room generalizing m name depth with
  | zero =>
    obtain ⟨depth, rfl⟩ := Nat.exists_eq_add_of_lt hdepth
    obtain ⟨id, label, m₁, events, hresolves, hquiet, -, hframes, -⟩ :=
      hs.loads _ hname (hs.noted (.asked name m.modules) hable) (hready.noted _) (habsent name hname)
    have hfull : m.IsFull := ⟨hhosted, Nat.sub_eq_zero_iff_le.mp hroom⟩
    obtain ⟨fault, hrefused, hfault⟩ := Engine.callGuarded_refused (Session.engine s.extension)
      (m := m₁.noted (.called name (.function id) label)) (hfull.of_frames hframes)
      (s.cost * 0 + depth) id [.ofString name, .ofString label]
    exact .of_function hname hready (habsent name hname) hresolves hquiet
      (.of_fault hrefused hfault (.refl _))
  | succ room ih =>
    have hnesting : (m.noted (.asked name m.modules)).nesting < Engine.nestingLimit := by
      rw [Machine.nesting_noted]
      omega
    have hcost : s.cost + s.cost * room < depth := by
      rwa [Nat.mul_succ, Nat.add_comm] at hdepth
    obtain ⟨id, label, m₁, events, hresolves, hquiet, -, -, hasks⟩ :=
      hs.loads depth hname (hs.noted (.asked name m.modules) hable) (hready.noted _) (habsent name hname)
    obtain ⟨deeper, m₂, later, hdeeper, hasks, hquiet', hable'⟩ := hasks hhosted hnesting (by omega)
    have hkeeps := ((Leaves.of_quiet (Graph.quiet_asked hready name)).trans (.of_quiet hquiet)).trans
      ((Leaves.noted hname (.function id) label m₁).trans (.of_quiet hquiet'))
    refine .of_function hname hready (habsent name hname) hresolves hquiet ?_
    refine .orFail_guarded (.of_asks hasks (.of_quiet hquiet') fun frame hhost hframe => ?_) _
    -- `require` runs in a frame of the host, one call deeper than the one before
    refine ih (r.closed name hname) ?_ (hs.frames _ hable') ⟨frame, _, rfl, hhost⟩ ?_ ?_ (by omega)
    · exact (Machine.Retains.frames m₂ _).ready hquiet'.ready
    · intro other hother
      exact (congrArg Value.isTrue (hkeeps.keeps other hother)).trans (habsent other hother)
    · change Engine.nestingLimit - frame.nesting = room
      rw [hframe, Machine.nesting_noted]
      omega

/-! ## Scripts in a ring -/

/-- Scripts for the modules of a ring in the library of the world: each begins with the next module. The
global variable `require` is the one for these tables, and there are no functions for the modules
beforehand. -/
structure Shelved (r : Ring) (tables : ModuleTables) (m : Machine (Service E) World) : Prop where
  shelf : Shelf (.edgeless ∅) tables m
  absent : ∀ name ∈ r.names, (m.tableAt tables.preload).getText name = .nil
  scripts : ∀ name ∈ r.names, ∃ file, m.world.library.lookup name = some file ∧
    Function.begins? (Chunk.compileText s!"@{file.name}" (Chunk.stripPreamble file.code.toUTF8)) =
      some (r.next name)

theorem Shelved.retained {tables : ModuleTables} (h : r.Shelved tables m) (hretains : m.Retains m') :
    r.Shelved tables m' where
  shelf := h.shelf.retained hretains
  absent name hname := by
    rw [hretains.tableAt _ h.shelf.preload_lt h.shelf.preload_ne]
    exact h.absent name hname
  scripts := by
    rw [hretains.library]
    exact h.scripts

/-- Scripts for the modules of a ring are loaded with the calls of a session. -/
def shelved (extension : Extension E) (r : Ring) (tables : ModuleTables) : Setting E where
  extension := extension
  tables := tables
  able := r.Shelved tables
  cost := 2

end Ring
end Module
end Sandbox
