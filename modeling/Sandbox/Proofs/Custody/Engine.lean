import Sandbox.Proofs.Custody.Evaluation
import Sandbox.Proofs.Script.Call

/-!
# Calls that keep the loader in custody

Two engines are alike as far as scripts can tell if the functions that are not from scripts are, where the
loader need only be so with the mode for texts. The calls of such engines are alike: scripts reach the
loader through the function that hands their arguments on, and through that one alone.
-/

namespace Sandbox.Script

variable {H W : Type} {α β : Type} {c : Custody} {m m' : Machine H W} {invoke invoke' : Invoke H W}

/-- The machine with variables for the parameters of a function. -/
def Machine.withParameters (m : Machine H W) (values : List Value) : Machine H W :=
  { m with locals := m.locals ++ values.toArray }

namespace Run

/-! ## The function that hands on -/

theorem runBlock_run {body : List Statement} {locals : List Nat}
    {pass : Option String → List Nat → Run H W Flow} {flow : Flow}
    (h : (pass none locals).run m = .ok flow m') (hflow : ∀ name locals, flow ≠ .jump name locals) :
    (runBlock body locals pass).run m = .ok flow m' := by
  rw [runBlock, repeatFrom_budget, bind_assoc, bind_ok h]
  cases flow with
  | jump name locals => exact absurd rfl (hflow name locals)
  | _ => rfl

theorem adjust_three (arguments : List Value) :
    ∃ mode, adjust arguments 3 = [arguments.getD 0 .nil, arguments.getD 1 .nil, mode] := by
  match arguments with
  | [] => exact ⟨_, rfl⟩
  | [_] => exact ⟨_, rfl⟩
  | [_, _] => exact ⟨_, rfl⟩
  | _ :: _ :: _ :: _ => exact ⟨_, by simp [adjust]; rfl⟩

/-- Parameters are the variables behind those that were there. -/
theorem bind_run (values : List Value) (locals : List Nat) :
    (Run.bind values locals).run m =
      .ok ((List.range' m.locals.size values.length).reverse ++ locals) (m.withParameters values) := by
  induction values generalizing m locals with
  | nil => simp [Run.bind, Machine.withParameters]
  | cons v rest ih =>
    have hone : (newVariable v >>= fun id => pure (id :: locals) : Run H W (List Nat)).run m =
        .ok (m.locals.size :: locals) { m with locals := m.locals.push v } := rfl
    have hrest := ih (m := { m with locals := m.locals.push v }) (m.locals.size :: locals)
    rw [Run.bind, List.foldlM_cons, bind_ok hone]
    refine hrest.trans ?_
    simp [Machine.withParameters, List.range'_succ]

/-- The function that hands on asks for a call of the loader in its own place. -/
theorem runFunction_handsOn (chunk : String) {f : Function} (hf : f.handsOn = true) :
    ∃ line, ∃ site : Site, site.kind ≠ "metamethod" ∧
      ∀ (invoke : Invoke H W) (m : Machine H W) (arguments : List Value), Guarded c m →
        (runFunction invoke chunk f [c.cell, 0] arguments).run m =
          .ok (.tail site (.function c.loader) (textArguments arguments))
            ((m.withParameters (adjust arguments 3)).atLine line) := by
  obtain ⟨line, callLine, ⟨_, callee, isOuter⟩, ⟨_, first, _⟩, ⟨_, second, _⟩, rfl, rfl, rfl, rfl⟩ :=
    Function.handsOn_eq hf
  refine ⟨callLine, ⟨if isOuter then "upvalue" else "local", callee⟩, by cases isOuter <;> simp,
    fun invoke m arguments hm => ?_⟩
  obtain ⟨mode, hadjust⟩ := adjust_three arguments
  have hvalues : (m.withParameters (adjust arguments 3)).locals.getD c.cell .nil = .function c.loader ∧
      (m.withParameters (adjust arguments 3)).locals.getD m.locals.size .nil = arguments.getD 0 .nil ∧
      (m.withParameters (adjust arguments 3)).locals.getD (m.locals.size + 1) .nil =
        arguments.getD 1 .nil := by
    obtain ⟨hlt, hcell⟩ := Array.getElem?_eq_some_iff.mp hm.cell
    rw [hadjust]
    simp [Machine.withParameters, Array.getElem?_append, hlt, hcell]
  have hbind := bind_run (m := m) (adjust arguments 3) [c.cell, 0]
  rw [show (adjust arguments 3).length = 3 by rw [hadjust]; rfl] at hbind
  rw [runFunction, bind_ok hbind]
  generalize m.withParameters (adjust arguments 3) = entered at hvalues ⊢
  refine runBlock_run ?_ fun _ _ h => by cases h
  rw [textArguments, ← hvalues.1, ← hvalues.2.1, ← hvalues.2.2]
  rfl

end Run

/-- New variables and another line leave a machine guarded. -/
theorem Guarded.withParameters (hm : Guarded c m) {values : List Value} (hvalues : Clear c values) :
    Guarded c (m.withParameters values) := by
  induction values generalizing m with
  | nil => simpa [Machine.withParameters] using hm
  | cons v rest ih =>
    obtain ⟨hv, hrest⟩ := clear_cons.mp hvalues
    simpa [Machine.withParameters] using ih (hm.pushLocal hv) hrest

theorem Guarded.atLine (hm : Guarded c m) (line : Nat) : Guarded c (m.atLine line) := by
  unfold Machine.atLine
  split
  · exact hm.congr rfl rfl rfl
  · exact hm

theorem clear_textArguments {arguments : List Value} (h : Clear c arguments) :
    Clear c (textArguments arguments) := by
  have hnil : Clear c Value.nil := by simp
  exact clear_cons.mpr ⟨clear_getD_list h 0 hnil, clear_cons.mpr ⟨clear_getD_list h 1 hnil,
    clear_cons.mpr ⟨by simp, clear_drop h 3⟩⟩⟩

namespace Engine

open Run

/-- Two engines are alike as far as scripts can tell. What their loaders do in another mode than the one
for texts is left open. -/
structure AlikeFor (c : Custody) (engine engine' : Engine H W) : Prop where
  routine : ∀ {invoke invoke' : Invoke H W}, CallsAlike c invoke invoke' → ∀ r arguments,
    r ≠ .base .load → Clear c (Callable.routine r : Callable H) → Clear c arguments →
      Alike c (engine.routine invoke r arguments) (engine'.routine invoke' r arguments)
  load : ∀ {invoke invoke' : Invoke H W}, CallsAlike c invoke invoke' → ∀ arguments,
    Clear c arguments → Alike c (engine.routine invoke (.base .load) (textArguments arguments))
      (engine'.routine invoke' (.base .load) (textArguments arguments))
  host : ∀ {invoke invoke' : Invoke H W}, CallsAlike c invoke invoke' → ∀ h arguments,
    Clear c arguments → Alike c (engine.host invoke h arguments) (engine'.host invoke' h arguments)

/-- What the function that hands on does in its frame. -/
def handOn (invoke : Invoke H W) (c : Custody) (line : Nat) (site : Option Site)
    (arguments : List Value) : Run H W (List Value) := do
  modify fun m => (m.withParameters (adjust arguments 3)).atLine line
  invoke site (.function c.loader) (textArguments arguments)

theorem inFrame_congr {frame : Frame} {act act' : Run H W α}
    (h : act.run { m with frames := frame :: m.frames } =
      act'.run { m with frames := frame :: m.frames }) :
    (Run.inFrame frame act).run m = (Run.inFrame frame act').run m := by
  rw [inFrame_run, inFrame_run, EStateM.run_bind, EStateM.run_bind, h]

/-- To look at the nesting changes nothing. -/
theorem eq_of_nestingOf {site : Option Site} {nesting : Nat}
    (h : (nestingOf site).run m = .ok nesting m') : m' = m := by
  have hraise (text : String) (n : Nat) : (raiseText text : Run H W Nat).run m ≠ .ok n m' := by
    unfold raiseText raiseAt placeOf
    rw [bind_assoc, bind_ok get_run]
    split <;> exact fun h => by cases h
  rw [nestingOf, bind_ok get_run] at h
  split at h
  · cases h; rfl
  · dsimp only at h
    split at h
    · cases h; rfl
    · split at h
      · exact absurd h (hraise _ _)
      · cases h; rfl

/-- A call of the function that hands on is one of the loader, from within a frame. -/
theorem enter_door (hm : Guarded c m) :
    ∃ chunk line callLine, ∃ callSite : Site, callSite.kind ≠ "metamethod" ∧
      ∀ (engine : Engine H W) (invoke : Invoke H W) site arguments, Clear c arguments →
        (enter engine invoke site c.door arguments).run m = (do
          let nesting ← nestingOf site
          Run.inFrame ⟨.function c.door, some chunk, line, site, nesting⟩ do
            return Sum.inr (← handOn invoke c callLine callSite arguments)).run m := by
  obtain ⟨chunk, f, hdoor, hf⟩ := hm.door
  obtain ⟨callLine, callSite, hkind, hrun⟩ := runFunction_handsOn (c := c) (H := H) (W := W) chunk hf
  obtain ⟨line, count, isVariadic, body⟩ := f
  refine ⟨chunk, line, callLine, callSite, hkind, fun engine invoke site arguments harguments => ?_⟩
  cases hnesting : (nestingOf site).run m with
  | error stop m' => rw [enter, bind_error hnesting, bind_error hnesting]
  | ok nesting m' =>
    obtain rfl := eq_of_nestingOf hnesting
    rw [enter, bind_ok hnesting, bind_ok hnesting, bind_ok get_run, hdoor]
    dsimp only
    refine inFrame_congr ?_
    have hframed : Guarded c { m' with
      frames := ⟨.function c.door, some chunk, line, site, nesting⟩ :: m'.frames } := hm.congr rfl rfl rfl
    have hentered := (hframed.withParameters (clear_adjust harguments 3)).atLine callLine
    rw [bind_ok (hrun invoke _ arguments hframed), handOn, bind_assoc]
    dsimp only
    rw [bind_ok get_run, hentered.loader]
    rfl

/-! ## Calls -/

@[grind .] theorem raiseUncallable_alike [Carries α] (site : Option Site) (f : Value) :
    Alike c (raiseUncallable site f : Run H W α) (raiseUncallable site f) := by
  grind [raiseUncallable]

/-- A function that is called is not the loader. -/
@[reducible] def carriesCallee : Carries (Nat × List Value) := ⟨fun c p => p.1 ≠ c.loader ∧ Clear c p.2⟩

/-- What stands for a value that is called is not the loader. -/
theorem resolve_alike (site : Option Site) (n : Nat) {f : Value} (hf : Clear c f)
    {arguments : List Value} (harguments : Clear c arguments) :
    @Alike H W _ c carriesCallee (resolve site n f arguments) (resolve site n f arguments) := by
  let := carriesCallee
  have hfunction {id : Nat} {arguments : List Value} (hid : Clear c (Value.function id))
      (harguments : Clear c arguments) : Clear c (id, arguments) :=
    ⟨fun heq => clear_value.mp hid (heq ▸ rfl), harguments⟩
  induction n generalizing f arguments with
  | zero =>
    cases f with
    | function id => exact .pure (hfunction hf harguments)
    | _ => exact .bind (.discard (metafield_alike _ _)) fun _ _ => raiseUncallable_alike _ _
  | succ n ih =>
    have hcons := clear_cons.mpr ⟨hf, harguments⟩
    cases f with
    | function id => exact .pure (hfunction hf harguments)
    | _ =>
      refine .bind (metafield_alike _ _) fun f' hf' => ?_
      cases f' with
      | function id => exact .pure (hfunction hf' hcons)
      | table id => exact ih (by simp) hcons
      | _ => exact raiseUncallable_alike _ _

@[grind .] theorem nestingOf_alike (site : Option Site) :
    Alike c (nestingOf site : Run H W Nat) (nestingOf site) := by
  unfold nestingOf
  grind

/-- A round of a call: what is called is entered, and it may ask for another call in its place. -/
def round (engine : Engine H W) (invoke : Invoke H W) (s : Option Site × Value × List Value) :
    Run H W ((Option Site × Value × List Value) ⊕ List Value) := do
  let (callee, arguments) ← resolve s.1 standInLimit s.2.1 s.2.2
  enter engine invoke s.1 callee arguments

theorem call_eq (engine : Engine H W) (depth : Nat) (site : Option Site) (f : Value)
    (arguments : List Value) : call engine (depth + 1) site f arguments =
      Run.repeatFrom (round engine (call engine depth)) budget (site, f, arguments) := rfl

/-- A host function or a routine runs in a frame of its own. -/
theorem inFrame_inr_alike (frame : Frame) {act act' : Run H W (List Value)} (hact : Alike c act act') :
    Alike c (Run.inFrame frame do return (Sum.inr (← act) : (Option Site × Value × List Value) ⊕ List Value))
      (Run.inFrame frame do return Sum.inr (← act')) :=
  inFrame_alike _ (.bind hact fun _ hvalues => .pure (clear_inr.mpr hvalues))

section Engines

variable {engine engine' : Engine H W} (hengine : AlikeFor c engine engine')
  (hinvoke : CallsAlike c invoke invoke')

include hinvoke

theorem handOn_alike (line : Nat) (site : Option Site) {arguments : List Value}
    (harguments : Clear c arguments) :
    Alike c (handOn invoke c line site arguments) (handOn invoke' c line site arguments) := by
  refine .bind (.modify fun m hm => ?_) fun _ _ => ?_
  · exact (hm.withParameters (clear_adjust harguments 3)).atLine line
  · exact hinvoke.loader _ _ harguments

include hengine

/-- Functions other than the loader are alike. -/
theorem enter_alike (site : Option Site) {id : Nat} (hid : id ≠ c.loader) {arguments : List Value}
    (harguments : Clear c arguments) :
    Alike c (enter engine invoke site id arguments) (enter engine' invoke' site id arguments) := by
  intro m hm
  by_cases hdoor : id = c.door
  · obtain ⟨chunk, line, callLine, callSite, -, henter⟩ := enter_door hm
    rw [hdoor, henter _ _ _ _ harguments, henter _ _ _ _ harguments]
    refine Alike.bind (nestingOf_alike site) (fun nesting _ => inFrame_inr_alike _ ?_) m hm
    exact handOn_alike hinvoke _ _ harguments
  · refine Alike.bind (nestingOf_alike site) (fun nesting _ => .of_get fun m hm => ?_) m hm
    have hclear := hm.functions id
    cases hfunction : m.functions[id]? with
    | none => exact Alike.pure (clear_inr.mpr clear_nil) m hm
    | some f =>
      have hf := hclear f hid hdoor hfunction
      cases f with
      | closure chunk f locals =>
        obtain ⟨line, count, isVariadic, body⟩ := f
        refine inFrame_alike _ (.bind (runFunction_alike hinvoke _ _ hf harguments) fun flow hflow => ?_) m hm
        cases flow with
        | finish values => exact .pure (clear_inr.mpr hflow)
        | tail site f arguments =>
          have hcall := hinvoke.clear site f arguments hflow.1 hflow.2
          have hdone : Alike c (do return Sum.inr (← invoke site f arguments))
              (do return (Sum.inr (← invoke' site f arguments) :
                (Option Site × Value × List Value) ⊕ List Value)) :=
            .bind hcall fun _ hvalues => .pure (clear_inr.mpr hvalues)
          cases f with
          | function id =>
            refine .bind .get fun m _ => ?_
            split
            · exact .pure (clear_inl.mpr ⟨clear_of_inert _, hflow⟩)
            · exact hdone
          | _ => exact hdone
        | _ => exact .pure (clear_inr.mpr clear_nil)
      | routine r =>
        refine inFrame_inr_alike _ (hengine.routine hinvoke r arguments ?_ hf harguments) m hm
        rintro rfl
        exact hf
      | host h => exact inFrame_inr_alike _ (hengine.host hinvoke h arguments harguments) m hm

/-- The loader is alike with the mode for texts. -/
theorem enter_loader_alike (site : Option Site) {arguments : List Value} (harguments : Clear c arguments) :
    Alike c (enter engine invoke site c.loader (textArguments arguments))
      (enter engine' invoke' site c.loader (textArguments arguments)) := by
  refine .bind (nestingOf_alike site) (fun nesting _ => .of_get fun m hm => ?_)
  rw [hm.loader]
  exact inFrame_inr_alike _ (hengine.load hinvoke arguments harguments) m hm

theorem round_alike {s : Option Site × Value × List Value} (hs : Clear c s) :
    Alike c (round engine invoke s) (round engine' invoke' s) :=
  @Alike.bind _ _ _ _ c carriesCallee _ _ _ _ _ (resolve_alike s.1 _ hs.2.1 hs.2.2)
    fun _ hcallee => enter_alike hengine hinvoke s.1 hcallee.1 hcallee.2

theorem rounds_alike (n : Nat) {s : Option Site × Value × List Value} (hs : Clear c s) :
    Alike c (Run.repeatFrom (round engine invoke) n s) (Run.repeatFrom (round engine' invoke') n s) :=
  .repeatFrom (fun _ hs => round_alike hengine hinvoke hs) n hs

omit hinvoke in
/-- The calls of engines that are alike are alike. -/
theorem call_alike (depth : Nat) : CallsAlike c (engine.call depth) (engine'.call depth) := by
  induction depth with
  | zero => exact ⟨fun _ _ _ _ _ => raiseText_alike _, fun _ _ _ => raiseText_alike _⟩
  | succ depth ih =>
    refine ⟨fun site f arguments hf harguments => ?_, fun site arguments harguments m hm => ?_⟩
    · rw [call_eq, call_eq]
      exact rounds_alike hengine ih _ ⟨clear_of_inert _, hf, harguments⟩
    · rw [call_succ, call_succ]
      refine Alike.bind (enter_loader_alike hengine ih site harguments) (fun r hr => ?_) m hm
      cases r with
      | inl s => exact rounds_alike hengine ih _ (clear_inl.mp hr)
      | inr values => exact .pure (clear_inr.mp hr)

omit hinvoke in
theorem invoke_alike : CallsAlike c engine.invoke engine'.invoke := call_alike hengine depthLimit

end Engines

end Engine
end Sandbox.Script
