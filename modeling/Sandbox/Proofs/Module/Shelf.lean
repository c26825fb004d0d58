import Sandbox.Proofs.Module.Graph
import Sandbox.Proofs.Script.Call
import Sandbox.Session.Basic

/-!
# Libraries of scripts

Scripts that ask for the modules that they need and return a new table, as units of code in the library
of a world. An engine runs such a script as `Graph.Performs` says, so a graph of them can be loaded.
-/

namespace Sandbox

open Script Script.Run

namespace Script

variable {H W : Type} {m : Machine H W} {invoke : Invoke H W} {scope : Scope}

/-! ## Scripts that ask for modules -/

/-- The module that a statement asks for, if this is all that it does. -/
def Statement.asks? : Statement → Option String
  | .call (.call _ (.index _ (.variable slot) (.text field)) [.text name]) =>
    if slot.index = 0 ∧ field = "require".toUTF8 then name.toText.toOption else none
  | _ => none

/-- The modules for which the statements of a function ask one after the other, before it returns a new
table. -/
def Statement.needs? : List Statement → Option (List String)
  | [] => none
  | [.result [.table []]] => some []
  | s :: rest => do
    let name ← s.asks?
    let names ← needs? rest
    return name :: names

/-- The modules for which a unit of code asks before it returns a new table, if it does nothing else. -/
def Function.needs? (compiled : Except Fault (Except Chunk.Refusal Function)) : Option (List String) :=
  match compiled with
  | .ok (.ok (.mk _ 0 _ body)) => Statement.needs? body
  | _ => none

theorem Function.needs?_eq_some {compiled : Except Fault (Except Chunk.Refusal Function)}
    {names : List String} (h : needs? compiled = some names) :
    ∃ line isVariadic body, compiled = .ok (.ok (.mk line 0 isVariadic body)) ∧
      Statement.needs? body = some names := by
  unfold needs? at h
  split at h
  case h_1 => exact ⟨_, _, _, rfl, h⟩
  case h_2 => cases h

theorem Statement.asks?_eq_some {s : Statement} {name : String} (h : s.asks? = some name) :
    ∃ line indexLine slot text, s = .call (.call line (.index indexLine (.variable slot)
      (.text "require".toUTF8)) [.text text]) ∧ slot.index = 0 ∧ text.toText = .ok name := by
  unfold asks? at h
  split at h
  case h_1 line indexLine slot field text =>
    split at h
    case isTrue hcond =>
      obtain ⟨hslot, hfield⟩ := hcond
      refine ⟨line, indexLine, slot, text, by rw [hfield], hslot, ?_⟩
      cases htext : text.toText with
      | error flaw => rw [htext] at h; cases h
      | ok t => rw [htext] at h; rw [Option.some.inj h]
    case isFalse => cases h
  case h_2 => cases h

/-- A call that asks for a module calls what the global variable `require` holds. -/
theorem Run.evaluate_asks (invoke : Invoke H W) {e : Expression} {name : String}
    (h : (Statement.call e).asks? = some name) {env id : Nat}
    (hlocals : scope.locals = [env]) (henv : m.locals[env]? = some (.table m.globals))
    (hrequire : (m.tableAt m.globals).getText "require" = .function id) :
    ∃ site line text, site.kind ≠ "metamethod" ∧ text.toText = .ok name ∧
      (evaluate invoke scope e).run m =
        (invoke (some site) (.function id) [.text text]).run (m.atLine line) := by
  obtain ⟨line, indexLine, slot, text, hcall, hslot, htext⟩ := Statement.asks?_eq_some h
  obtain rfl := Statement.call.inj hcall
  let callee : Expression := .index indexLine (.variable slot) (.text "require".toUTF8)
  let site : Site :=
    ⟨if slot.name = environmentName then "global" else "field", "require".toUTF8.toTextLossy⟩
  have hobject : (first (evaluate invoke scope (.variable slot)) : Run H W Value).run m =
      .ok (.table m.globals) m := by
    have hvalue : (variableValue env : Run H W Value).run m = .ok (.table m.globals) m := by
      change EStateM.Result.ok (m.locals.getD env .nil) m = _
      rw [Array.getD_eq_getD_getElem?, henv]
      rfl
    rw [first, evaluate, hslot, hlocals]
    simp only [bind_assoc]
    exact Run.bind_ok hvalue
  have hcallee : (first (evaluate invoke scope callee) : Run H W Value).run m =
      .ok (.function id) (m.atLine indexLine) := by
    rw [first, evaluate]
    simp only [bind_assoc]
    have hkey : (first (evaluate invoke scope (.text "require".toUTF8)) : Run H W Value).run m =
        .ok (.ofString "require") m := by
      rw [first, evaluate]
      rfl
    have hthere : ((m.atLine indexLine).tableAt m.globals).getText "require" = .function id := by
      rw [Machine.tableAt_atLine, hrequire]
    have hindex := index_run invoke (.variable slot) (by rw [hthere]; simp)
    rw [hthere] at hindex
    rw [Run.bind_ok hobject, Run.bind_ok hkey, Run.bind_ok (atLine_run _), Run.bind_ok hindex]
    rfl
  refine ⟨site, line, text, ?_, htext, ?_⟩
  · dsimp only [site]
    split <;> decide
  · have hgiven : (evaluateAll invoke scope [.text text] : Run H W (List Value)).run (m.atLine indexLine) =
        .ok [.text text] (m.atLine indexLine) := by
      rw [evaluateAll, evaluate]
      rfl
    rw [evaluate, Run.bind_ok hcallee, Run.bind_ok hgiven, Run.bind_ok (atLine_run _),
      Machine.atLine_atLine]
    rfl

/-- So does a statement that is such a call. -/
theorem Run.execute_asks (invoke : Invoke H W) {s : Statement} {name : String} (h : s.asks? = some name)
    {env id : Nat} (hlocals : scope.locals = [env]) (henv : m.locals[env]? = some (.table m.globals))
    (hrequire : (m.tableAt m.globals).getText "require" = .function id) :
    ∃ site line text, site.kind ≠ "metamethod" ∧ text.toText = .ok name ∧
      (execute invoke scope s).run m = (do
        let _ ← invoke (some site) (.function id) [.text text]
        return .next scope.locals : Run H W Flow).run (m.atLine line) := by
  obtain ⟨_, _, _, _, rfl, -⟩ := Statement.asks?_eq_some h
  obtain ⟨site, line, text, hsite, htext, hcall⟩ := evaluate_asks invoke h hlocals henv hrequire
  refine ⟨site, line, text, hsite, htext, ?_⟩
  rw [execute, discard_bind, EStateM.run_bind, EStateM.run_bind, hcall]

/-- A statement that returns a new table makes one. -/
theorem Run.execute_result (invoke : Invoke H W) (scope : Scope) (m : Machine H W) :
    ∃ t, (execute invoke scope (.result [.table []])).run m =
      .ok (.finish [.table m.tables.size]) { m with tables := m.tables.push t } := by
  refine ⟨(Table.withSizes 0 0).reserve 0, ?_⟩
  have hnew : (newTable (.withSizes 0 0) : Run H W Nat).run m =
      .ok m.tables.size { m with tables := m.tables.push (.withSizes 0 0) } := rfl
  have hput : (putItems m.tables.size 0 [] : Run H W Unit).run
      { m with tables := m.tables.push (.withSizes 0 0) } =
      .ok () { m with tables := m.tables.push ((Table.withSizes 0 0).reserve 0) } := by
    rw [putItems, modifyTable_run]
    have hlast : (m.tables.push (.withSizes 0 0)).setIfInBounds m.tables.size
        ((Table.withSizes 0 0).reserve 0) = m.tables.push ((Table.withSizes 0 0).reserve 0) :=
      Array.ext' (by simp)
    simp [Machine.setTable, Machine.tableAt, hlast]
  have hevaluate : (evaluateAll invoke scope [.table []] : Run H W (List Value)).run m =
      .ok [.table m.tables.size] { m with tables := m.tables.push ((Table.withSizes 0 0).reserve 0) } := by
    rw [evaluateAll, evaluate]
    change (newTable (.withSizes 0 0) >>= _).run m = _
    rw [bind_ok hnew, fill, List.reverse_nil, bind_ok hput]
    rfl
  rw [execute]
  exact Run.bind_ok hevaluate

end Script

/-! ## What remains of a machine -/

namespace Script.Machine

/-- What there is on a machine stays, but for the table of modules, and more may come. -/
structure Retains {H : Type} (m m' : Machine H World) : Prop where
  ready : m.Ready → m'.Ready
  globals : m'.globals = m.globals
  loaded : m'.loaded = m.loaded
  size_tables : m.tables.size ≤ m'.tables.size
  tableAt : ∀ id < m.tables.size, id ≠ m.loaded → m'.tableAt id = m.tableAt id
  functions : ∀ (id : Nat) (f : Callable H), m.functions[id]? = some f → m'.functions[id]? = some f
  locals : ∀ (id : Nat) (v : Value), m.locals[id]? = some v → m'.locals[id]? = some v
  library : m'.world.library = m.world.library

variable {H : Type} {m m' m'' : Machine H World}

@[simp] theorem nesting_noted (m : Machine H World) (e : Module.Event) :
    (m.noted e).nesting = m.nesting := rfl

theorem tableAt_pushTable {id : Nat} (hid : id < m.tables.size) (t : Table) :
    tableAt { m with tables := m.tables.push t } id = m.tableAt id := by
  simp [tableAt, Array.getD_eq_getD_getElem?, Array.getElem?_push, Nat.ne_of_lt hid]

namespace Retains

theorem refl (m : Machine H World) : m.Retains m :=
  ⟨id, rfl, rfl, le_rfl, fun _ _ _ => rfl, fun _ _ h => h, fun _ _ h => h, rfl⟩

theorem trans (h : m.Retains m') (h' : m'.Retains m'') : m.Retains m'' where
  ready := h'.ready ∘ h.ready
  globals := h'.globals.trans h.globals
  loaded := h'.loaded.trans h.loaded
  size_tables := h.size_tables.trans h'.size_tables
  tableAt id hid hne := (h'.tableAt id (hid.trans_le h.size_tables) (h.loaded ▸ hne)).trans
    (h.tableAt id hid hne)
  functions id f hf := h'.functions id f (h.functions id f hf)
  locals id v hv := h'.locals id v (h.locals id v hv)
  library := h'.library.trans h.library

theorem noted (m : Machine H World) (e : Module.Event) : m.Retains (m.noted e) :=
  { refl m with ready := fun h => h.noted e }

theorem frames (m : Machine H World) (frames : List Frame) : m.Retains { m with frames } :=
  { refl m with ready := fun h => ⟨h.loaded, h.sound, h.plain⟩ }

theorem atLine (m : Machine H World) (line : Nat) : m.Retains (m.atLine line) := by
  unfold Machine.atLine
  split
  · exact frames m _
  · exact refl m

theorem pushTable (m : Machine H World) (t : Table) : m.Retains { m with tables := m.tables.push t } := by
  refine { refl m with ready := fun h => ⟨?_, ?_, ?_⟩, size_tables := by simp, tableAt := ?_ }
  · simpa using Nat.lt_succ_of_lt h.loaded
  · exact (congrArg Table.Sound (tableAt_pushTable h.loaded t)).mpr h.sound
  · exact (congrArg Table.metatable (tableAt_pushTable h.loaded t)).trans h.plain
  · exact fun _ hid _ => tableAt_pushTable hid t

theorem pushLocal (m : Machine H World) (v : Value) : m.Retains { m with locals := m.locals.push v } :=
  { refl m with
    ready := fun h => ⟨h.loaded, h.sound, h.plain⟩
    locals := fun id w hw => by
      obtain ⟨hid, -⟩ := Array.getElem?_eq_some_iff.mp hw
      simpa [Array.getElem?_push, Nat.ne_of_lt hid] using hw }

theorem pushFunction (m : Machine H World) (f : Callable H) :
    m.Retains { m with functions := m.functions.push f } :=
  { refl m with
    ready := fun h => ⟨h.loaded, h.sound, h.plain⟩
    functions := fun id g hg => by
      obtain ⟨hid, -⟩ := Array.getElem?_eq_some_iff.mp hg
      simpa [Array.getElem?_push, Nat.ne_of_lt hid] using hg }

theorem settled (h : m.Ready) (name : String) (result : Value) :
    m.Retains (m.setModules (m.modules.settled name result)) := by
  refine { refl m with ready := fun _ => ⟨?_, ?_, ?_⟩, size_tables := by simp, tableAt := ?_ }
  · simpa using h.loaded
  · rw [modules_setModules h.loaded]
    exact h.sound.settled name result
  · rw [modules_setModules h.loaded, Table.metatable_settled, h.plain]
  · exact fun id _ hne => tableAt_setTable_of_ne (Ne.symm hne) _

end Retains
end Script.Machine

namespace Module

variable {H : Type} {m m' : Machine H World} {g : Graph} {s : Graph.Setting H} {α : Type}

namespace Graph

/-- A machine with the same modules, and no new events. -/
theorem quiet_of_modules (hready : m'.Ready) (hmodules : m'.modules = m.modules)
    (hhistory : m'.world.history = m.world.history) : g.Quiet m m' [] where
  ready := hready
  keeps _ _ := by rw [hmodules]
  history := by rw [hhistory, List.append_nil]
  started := by simp
  finished := by simp
  answered := by simp

theorem quiet_frames (hready : m.Ready) (frames : List Frame) :
    g.Quiet m { m with frames } [] :=
  quiet_of_modules ((Machine.Retains.frames m frames).ready hready) rfl rfl

theorem quiet_atLine (hready : m.Ready) (line : Nat) : g.Quiet m (m.atLine line) [] := by
  refine quiet_of_modules ((Machine.Retains.atLine m line).ready hready) ?_ ?_ <;>
    unfold Machine.atLine <;> split <;> rfl

/-- A program in a frame of its own. -/
theorem Performs.inFrame {asks missing : List String} {done : α → Machine H World → Prop}
    {act : Run H World α} {frame : Frame} (hready : m.Ready)
    (h : g.Performs s asks (fun a m' => m'.Ready ∧ done a { m' with frames := m'.frames.drop 1 })
      missing act { m with frames := frame :: m.frames }) :
    g.Performs s asks done missing (Run.inFrame frame act) m := by
  refine .work (Run.inFrame_run frame act) (quiet_frames hready _) ?_
  refine h.bind_nil fun a m' ⟨hready, hdone⟩ => ?_
  have hleave : (modify fun m => { m with frames := m.frames.drop 1 } : Run H World Unit).run m' =
      .ok () { m' with frames := m'.frames.drop 1 } := rfl
  exact .after hleave (quiet_frames hready _) (.finish rfl hdone)

end Graph

variable {E : Type} {extension : Extension E} {m m' : Machine (Service E) World}

/-- The tables of modules for which a function is `require`. -/
def requires? : Callable (Service E) → Option ModuleTables
  | .host (.require tables) => some tables
  | _ => none

theorem eq_of_requires? {f : Callable (Service E)} {tables : ModuleTables} (h : requires? f = some tables) :
    f = .host (.require tables) := by
  unfold requires? at h
  split at h
  case h_1 => rw [Option.some.inj h]
  case h_2 => cases h

/-- Scripts for the modules of a graph in the library of the world: each asks for the modules that it
needs, one after the other, and returns a new table. The global variable `require` is the one for these
tables, and there are no functions for the modules beforehand. -/
structure Shelf (g : Graph) (tables : ModuleTables) (m : Machine (Service E) World) : Prop where
  globals_lt : m.globals < m.tables.size
  globals_ne : m.globals ≠ m.loaded
  preload_lt : tables.preload < m.tables.size
  preload_ne : tables.preload ≠ m.loaded
  require : ∃ id : Nat, (m.tableAt m.globals).getText "require" = .function id ∧
    m.functions[id]?.bind requires? = some tables
  plain : (m.tableAt tables.preload).metatable = none
  absent : ∀ name ∈ g.names, (m.tableAt tables.preload).getText name = .nil
  scripts : ∀ name ∈ g.names, ∃ file, m.world.library.lookup name = some file ∧
    Function.needs? (Chunk.compileText s!"@{file.name}" (Chunk.stripPreamble file.code.toUTF8)) =
      some (g.needs name)

theorem Shelf.require_function {g : Graph} {tables : ModuleTables} (h : Shelf g tables m) :
    ∃ id : Nat, (m.tableAt m.globals).getText "require" = .function id ∧
      m.functions[id]? = some (.host (.require tables)) := by
  obtain ⟨id, hrequire, hfunction⟩ := h.require
  obtain ⟨f, hf, hrequires⟩ := Option.bind_eq_some_iff.mp hfunction
  exact ⟨id, hrequire, eq_of_requires? hrequires ▸ hf⟩

theorem Shelf.retained {g : Graph} {tables : ModuleTables} (h : Shelf g tables m)
    (hretains : m.Retains m') : Shelf g tables m' := by
  have hglobals := hretains.tableAt m.globals h.globals_lt h.globals_ne
  have hpreload := hretains.tableAt tables.preload h.preload_lt h.preload_ne
  obtain ⟨id, hrequire, hfunction⟩ := h.require_function
  have hfunction' := hretains.functions _ _ hfunction
  refine ⟨?_, ?_, h.preload_lt.trans_le hretains.size_tables, ?_, ⟨id, ?_, by rw [hfunction']; rfl⟩,
    hpreload ▸ h.plain, hpreload ▸ h.absent, ?_⟩
  · rw [hretains.globals]
    exact h.globals_lt.trans_le hretains.size_tables
  · rw [hretains.globals, hretains.loaded]
    exact h.globals_ne
  · rw [hretains.loaded]
    exact h.preload_ne
  · rw [hretains.globals, hglobals, hrequire]
  · rw [hretains.library]
    exact h.scripts

/-- The modules of scripts can be asked for where calls may still be nested as deep as the graph is. -/
def shelves (extension : Extension E) (g : Graph) (tables : ModuleTables) (rank : String → Nat) :
    Graph.Setting (Service E) where
  tables := tables
  able name invoke m := Shelf g tables m ∧ m.nesting + rank name < Engine.nestingLimit ∧
    ∃ depth, 2 * rank name + 1 < depth ∧ invoke = (Session.engine extension).call depth
  steady m m' := m.Retains m' ∧ m'.frames = m.frames

section Shelves

variable {g : Graph} {tables : ModuleTables} {rank : String → Nat} {name : String} {depth nesting : Nat}

/-- A call of `require` runs it for this name in a frame of its own. -/
theorem call_require_run (extension : Extension E) {id : Nat} {site : Option Site} {text : ByteArray}
    (hcalled : (Engine.nestingOf site).run m = .ok nesting m)
    (hfunction : m.functions[id]? = some (.host (.require tables))) (htext : text.toText = .ok name) :
    ((Session.engine extension).call (depth + 1) site (.function id) [.text text]).run m =
      (Run.inFrame ⟨.function id, none, 0, site, nesting⟩ do
        return [← require ((Session.engine extension).call depth) tables name]).run m := by
  have hargument : Value.hostArgument Value.toHostText [.text text] 1 = .ok name := by
    simp [Value.hostArgument, Value.toHostText, Numeral.text?, Value.decodeText, htext, Except.mapError]
  rw [Engine.call_host hcalled hfunction]
  change (Run.inFrame _ (Service.run extension _ (.require tables) [.text text])).run m = _
  rw [Service.run, hargument]
  rfl

/-- A call of `require` in a script asks for a module. -/
theorem performs_require_call (extension : Extension E) (rank : String → Nat) {asks : List String}
    {id : Nat} {site : Site} {text : ByteArray} {f : Frame} {rest : List Frame} (hready : m.Ready)
    (hshelf : Shelf g tables m)
    (hfunction : m.functions[id]? = some (.host (.require tables)))
    (hframes : m.frames = f :: rest) (hscript : f.chunk.isSome) (hsite : site.kind ≠ "metamethod")
    (htext : text.toText = .ok name) (hname : name ∈ asks)
    (hnesting : f.nesting + rank name < Engine.nestingLimit) (hdepth : 2 * rank name + 1 < depth) :
    g.Performs (shelves extension g tables rank) asks
      (fun _ m' => m'.Ready ∧ m.Retains m' ∧ m'.frames = m.frames) [name]
      ((Session.engine extension).call (depth + 1) (some site) (.function id) [.text text]) m := by
  have hcalled := Engine.nestingOf_run_of_script hframes hscript hsite
  refine .of_run (call_require_run extension hcalled hfunction htext) ?_
  let entered : Machine (Service E) World :=
    { m with frames := ⟨.function id, none, 0, some site, f.nesting⟩ :: m.frames }
  have hentered : m.Retains entered := .frames m _
  refine .inFrame hready (.ask hname ⟨hshelf.retained hentered, hnesting, depth, hdepth, rfl⟩
    rfl fun v m' _ ⟨hretains, hsame⟩ => ?_)
  have hboth := hentered.trans hretains
  have hleft : m.Retains { m' with frames := m'.frames.drop 1 } := hboth.trans (.frames m' _)
  refine (Graph.Performs.finish rfl ⟨hboth.ready hready, hleft.ready hready, hleft, ?_⟩).weaken (by simp)
  simp [hsame]

/-- A statement that asks for a module. -/
theorem performs_statement (extension : Extension E) (rank : String → Nat) (scope : Scope)
    {asks : List String} {env : Nat} {f : Frame} {rest : List Frame} {statement : Statement}
    (hready : m.Ready) (hshelf : Shelf g tables m)
    (hlocals : scope.locals = [env]) (henv : m.locals[env]? = some (.table m.globals))
    (hframes : m.frames = f :: rest) (hscript : f.chunk.isSome) (hname : statement.asks? = some name)
    (hasks : name ∈ asks) (hnesting : f.nesting + rank name < Engine.nestingLimit)
    (hdepth : 2 * rank name + 1 < depth) :
    g.Performs (shelves extension g tables rank) asks (fun flow m' =>
      flow = .next scope.locals ∧ m'.Ready ∧ m.Retains m' ∧ ∃ line, m'.frames = { f with line } :: rest)
      [name] (execute ((Session.engine extension).call (depth + 1)) scope statement) m := by
  obtain ⟨id, hrequire, hfunction⟩ := hshelf.require_function
  obtain ⟨site, line, text, hsite, htext, hrun⟩ :=
    execute_asks ((Session.engine extension).call (depth + 1)) hname hlocals henv hrequire
  have hline : m.Retains (m.atLine line) := .atLine m line
  have hatLine : (m.atLine line).frames = { f with line } :: rest := by
    simp [Machine.atLine, hframes]
  have hcall := performs_require_call extension rank (hline.ready hready) (hshelf.retained hline)
    (hline.functions _ _ hfunction) hatLine hscript hsite htext hasks hnesting hdepth
  refine .work hrun (Graph.quiet_atLine hready line) (hcall.bind_nil fun _ m' hafter => ?_)
  obtain ⟨hready', hretains, hsame⟩ := hafter
  exact .finish rfl ⟨rfl, hready', hline.trans hretains, line, hsame.trans hatLine⟩

/-- The statements of a function that asks for modules one after the other. -/
theorem performs_statements (extension : Extension E) (scope : Scope) {asks needs : List String}
    {env nesting : Nat} {f : Frame} {rest : List Frame} {body : List Statement} (hready : m.Ready)
    (hshelf : Shelf g tables m)
    (hlocals : scope.locals = [env]) (henv : m.locals[env]? = some (.table m.globals))
    (hframes : m.frames = f :: rest) (hscript : f.chunk.isSome) (hnesting : f.nesting ≤ nesting)
    (hbody : Statement.needs? body = some needs) (hasks : ∀ name ∈ needs, name ∈ asks)
    (hable : ∀ name ∈ needs, nesting + rank name < Engine.nestingLimit ∧ 2 * rank name + 1 < depth) :
    g.Performs (shelves extension g tables rank) asks
      (fun flow m' => m'.Ready ∧ m.Retains m' ∧ (∃ id, flow = .finish [.table id]) ∧
        ∃ f', m'.frames = f' :: rest) needs
      (executeFrom ((Session.engine extension).call (depth + 1)) scope none body) m := by
  induction body generalizing m needs f with
  | nil => cases hbody
  | cons statement others ih =>
    unfold Statement.needs? at hbody
    split at hbody
    case h_1 => cases hbody
    case h_2 heq =>
      obtain ⟨rfl, rfl⟩ := List.cons.inj heq
      obtain rfl := Option.some.inj hbody
      obtain ⟨t, hresult⟩ := execute_result ((Session.engine extension).call (depth + 1)) scope m
      have hpush := Machine.Retains.pushTable m t
      have hquiet : g.Quiet m { m with tables := m.tables.push t } [] :=
        Graph.quiet_of_modules (hpush.ready hready) (Machine.tableAt_pushTable hready.loaded t) rfl
      rw [executeFrom_one _ (by simp)]
      exact .after hresult hquiet (.finish rfl ⟨hpush.ready hready, hpush, ⟨_, rfl⟩, f, hframes⟩)
    case h_3 heq =>
      obtain ⟨rfl, rfl⟩ := List.cons.inj heq
      obtain ⟨name, hname, hbody⟩ := Option.bind_eq_some_iff.mp hbody
      obtain ⟨names, hnames, hbody⟩ := Option.bind_eq_some_iff.mp hbody
      obtain rfl := Option.some.inj hbody
      obtain ⟨hnested, hdepth⟩ := hable name (by simp)
      have hstatement := performs_statement extension rank scope hready hshelf hlocals henv hframes
        hscript hname (hasks name (by simp))
        (Nat.lt_of_le_of_lt (Nat.add_le_add_right hnesting _) hnested) hdepth
      have hsimple : ∀ line names closing values, statement ≠ .locals line names (some closing) values := by
        rintro line names closing values rfl
        cases hname
      rw [executeFrom_one _ hsimple]
      refine hstatement.bind ?_
      rintro _ m' ⟨rfl, hready', hretains, line, hframes'⟩
      have henv' : m'.locals[env]? = some (.table m'.globals) := by
        rw [hretains.globals]
        exact hretains.locals _ _ henv
      have hothers := ih hready' (hshelf.retained hretains) henv' hframes' hscript hnesting hnames
        (fun name hmem => hasks name (by simp [hmem])) (fun name hmem => hable name (by simp [hmem]))
      refine hothers.imp fun flow m'' hafter => ?_
      obtain ⟨hready'', hretains', hflow⟩ := hafter
      exact ⟨hready'', hretains.trans hretains', hflow⟩

/-- A call of a script asks for what the script needs and returns a new table. -/
theorem performs_script_call (extension : Extension E) (rank : String → Nat) (depth : Nat)
    (arguments : List Value) {id env line : Nat} {isVariadic : Bool} {body : List Statement}
    {chunk : String} {needs : List String} (hready : m.Ready)
    (hshelf : Shelf g tables m)
    (hfunction : m.functions[id]? = some (.closure chunk (.mk line 0 isVariadic body) [env]))
    (henv : m.locals[env]? = some (.table m.globals)) (hbody : Statement.needs? body = some needs)
    (hnesting : m.nesting < Engine.nestingLimit)
    (hable : ∀ name ∈ needs,
      m.nesting + 1 + rank name < Engine.nestingLimit ∧ 2 * rank name + 1 < depth) :
    g.Performs (shelves extension g tables rank) needs
      (fun results m' => (∃ id, results = [.table id]) ∧ m.Retains m' ∧ m'.frames = m.frames) needs
      ((Session.engine extension).call (depth + 2) none (.function id) arguments) m := by
  obtain ⟨nesting, hle, hnested⟩ := Engine.nestingOf_run none hnesting
  obtain ⟨toResult, htoResult, henter⟩ := Engine.enter_closure (Session.engine extension)
    ((Session.engine extension).call (depth + 1)) arguments hnested hfunction
  obtain ⟨toFlow, htoFlow, hrun⟩ := runFunction_eq ((Session.engine extension).call (depth + 1))
    chunk line isVariadic body [env] arguments
  let frame : Frame := ⟨.function id, some chunk, line, none, nesting⟩
  have hentered : m.Retains { m with frames := frame :: m.frames } := .frames m _
  have hstatements := performs_statements extension
    ⟨chunk, [env], if isVariadic then arguments else []⟩ (m := { m with frames := frame :: m.frames })
    (hentered.ready hready) (hshelf.retained hentered) rfl henv rfl rfl hle hbody (fun _ h => h) hable
  have hframe : g.Performs (shelves extension g tables rank) needs
      (fun r m' => (∃ id, r = .inr [.table id]) ∧ m.Retains m' ∧ m'.frames = m.frames) needs
      (Engine.enter (Session.engine extension) ((Session.engine extension).call (depth + 1)) none id arguments)
      m := by
    refine .of_run henter (.inFrame hready ?_)
    rw [hrun, bind_assoc]
    refine hstatements.bind_nil ?_
    rintro _ m' ⟨hready', hretains, ⟨id, rfl⟩, f', hframes⟩
    rw [htoFlow, pure_bind, htoResult]
    refine .finish rfl ⟨hready', ⟨id, rfl⟩, (hentered.trans hretains).trans (.frames m' _), ?_⟩
    simp [hframes]
  refine .of_run Engine.call_succ (hframe.bind_nil ?_)
  rintro _ m' ⟨⟨id, rfl⟩, hretains, hframes⟩
  exact .finish rfl ⟨⟨id, rfl⟩, hretains, hframes⟩

/-- The searcher for the library makes a function of the script of a module for which there is none
beforehand. -/
theorem resolves_in_library (hready : m.Ready) (hplain : (m.tableAt tables.preload).metatable = none)
    (habsent : (m.tableAt tables.preload).getText name = .nil) {file : SourceFile}
    (hfile : m.world.library.lookup name = some file) {f : Function}
    (hcompile : Chunk.compileText s!"@{file.name}" (Chunk.stripPreamble file.code.toUTF8) = .ok (.ok f))
    (invoke : Invoke (Service E) World) :
    ∃ (id env : Nat) (chunk label : String) (loaded : Machine (Service E) World),
      Resolves invoke tables name Searcher.all m (.hit (.function id) label) loaded ∧
      g.Quiet m loaded [.consulted name .preload, .consulted name .library] ∧
      m.Retains loaded ∧ loaded.frames = m.frames ∧
      loaded.functions[id]? = some (.closure chunk f [env]) ∧
      loaded.locals[env]? = some (.table loaded.globals) := by
  let asked := (m.noted (.consulted name .preload)).noted (.consulted name .library)
  let chunk := Chunk.displayName s!"@{file.name}".toUTF8
  let loaded : Machine (Service E) World :=
    { asked with
      locals := asked.locals.push (.table m.globals)
      functions := asked.functions.push (.closure chunk f [m.locals.size]) }
  have hretains : m.Retains loaded := ((Machine.Retains.noted _ _).trans (.noted _ _)).trans
    ((Machine.Retains.pushLocal asked _).trans (.pushFunction _ _))
  have hfield := Run.hostField_run (m := m.noted (.consulted name .preload)) hplain invoke name
  rw [Machine.tableAt_noted, habsent] at hfield
  have hload : (Chunk.loadSource file : Run (Service E) World _).run asked =
      .ok (.ok (.chunk (.function m.functions.size))) loaded := by
    rw [Chunk.loadSource, Run.bind_ok Run.get_run, Chunk.load, hcompile]
    rfl
  have hresolves : Resolves invoke tables name Searcher.all m
      (.hit (.function m.functions.size) file.name) loaded :=
    .passed (.notPreloaded hfield) (.decided (.inLibrary hfile hload) (by rintro ⟨trail, h⟩; cases h))
  have hquiet : g.Quiet m loaded [.consulted name .preload, .consulted name .library] :=
    ⟨hretains.ready hready, fun _ _ => rfl, List.append_assoc .., by simp, by simp, by simp⟩
  exact ⟨m.functions.size, m.locals.size, chunk, file.name, loaded, hresolves, hquiet, hretains, rfl,
    Array.getElem?_push_size, Array.getElem?_push_size⟩

/-- The script of a module on the shelf is found and becomes a function. -/
theorem Shelf.resolves (h : Shelf g tables m) (hready : m.Ready) (hname : name ∈ g.names)
    (invoke : Invoke (Service E) World) :
    ∃ (id env line : Nat) (isVariadic : Bool) (body : List Statement) (chunk label : String)
      (loaded : Machine (Service E) World),
      Resolves invoke tables name Searcher.all m (.hit (.function id) label) loaded ∧
      g.Quiet m loaded [.consulted name .preload, .consulted name .library] ∧
      m.Retains loaded ∧ loaded.frames = m.frames ∧
      loaded.functions[id]? = some (.closure chunk (.mk line 0 isVariadic body) [env]) ∧
      loaded.locals[env]? = some (.table loaded.globals) ∧ Statement.needs? body = some (g.needs name) := by
  obtain ⟨file, hfile, hunit⟩ := h.scripts name hname
  obtain ⟨line, isVariadic, body, hcompile, hneeds⟩ := Function.needs?_eq_some hunit
  obtain ⟨id, env, chunk, label, loaded, hresolves, hquiet, hretains, hframes, hfunction, henv⟩ :=
    resolves_in_library (g := g) hready h.plain (h.absent name hname) hfile hcompile invoke
  exact ⟨id, env, line, isVariadic, body, chunk, label, loaded, hresolves, hquiet, hretains, hframes,
    hfunction, henv, hneeds⟩

/-- All modules of a graph can be loaded whose scripts are in the library. -/
theorem shelves_provides (hrank : ∀ name ∈ g.names, ∀ other ∈ g.needs name, rank other < rank name) :
    (shelves extension g tables rank).Provides g where
  trans h h' := ⟨h.1.trans h'.1, h'.2.trans h.2⟩
  noted m e := ⟨.noted m e, rfl⟩
  settled hready name _ result := ⟨.settled hready name result, rfl⟩
  able h hsteady := by
    obtain ⟨hshelf, hnesting, hdepth⟩ := h
    refine ⟨hshelf.retained hsteady.1, ?_, hdepth⟩
    rwa [Machine.nesting, hsteady.2]
  loads {m name invoke} hname hable hready _ := by
    obtain ⟨hshelf, hnesting, depth, hdepth, rfl⟩ := hable
    obtain ⟨depth, rfl⟩ := Nat.exists_eq_add_of_le' (show 2 ≤ depth by omega)
    obtain ⟨id, env, line, isVariadic, body, chunk, label, loaded, hresolves, hquiet, hretains, hframes,
      hfunction, henv, hneeds⟩ := hshelf.resolves hready hname ((Session.engine extension).call (depth + 2))
    have hcalled := hretains.trans (.noted loaded (.called name (.function id) label))
    have hsame : (loaded.noted (.called name (.function id) label)).nesting = m.nesting := by
      rw [Machine.nesting_noted, Machine.nesting, Machine.nesting, hframes]
    have hcall := performs_script_call extension rank depth [.ofString name, .ofString label]
      (hcalled.ready hready) (hshelf.retained hcalled)
      hfunction henv hneeds (by omega) fun other hmem => by
        have := hrank name hname other hmem
        omega
    refine ⟨_, _, _, _, hresolves, hquiet, ⟨hretains, hframes⟩, hcall.imp ?_⟩
    rintro _ m' ⟨⟨made, rfl⟩, hsteady⟩
    exact ⟨rfl, hsteady⟩

end Shelves

end Module
end Sandbox
