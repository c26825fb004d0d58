import Sandbox.Proofs.Script.Run
import Sandbox.Script.Engine

/-!
# Calls of functions

How an engine runs a function that it is asked to call: in a frame of its own, one call deeper, and from
the first statement of the body on. What lies behind the end of the body leaves its results alone.
-/

namespace Sandbox.Script

variable {H W α β σ : Type} {m m' : Machine H W} {invoke : Invoke H W} {scope : Scope}

namespace Machine

/-- The machine with the running function on another line. -/
def atLine (m : Machine H W) (line : Nat) : Machine H W :=
  match m.frames with
  | f :: rest => { m with frames := { f with line } :: rest }
  | [] => m

@[simp] theorem atLine_atLine (m : Machine H W) (line other : Nat) :
    (m.atLine line).atLine other = m.atLine other := by
  cases hframes : m.frames <;> simp [atLine, hframes]

@[simp] theorem tableAt_atLine (m : Machine H W) (line id : Nat) :
    (m.atLine line).tableAt id = m.tableAt id := by
  unfold atLine
  split <;> rfl

/-- How deep the running function is nested in functions that are not from scripts. -/
def nesting (m : Machine H W) : Nat := (m.frames.head?.map (·.nesting)).getD 0

end Machine

namespace Run

/-! ## Parts of a body -/

theorem atLine_run (line : Nat) : (atLine line : Run H W Unit).run m = .ok () (m.atLine line) := rfl

/-- A field of a table that is there is found at once. -/
theorem index_run (invoke : Invoke H W) {id : Nat} {key : String} (source : Expression)
    (h : (m.tableAt id).getText key ≠ .nil) :
    (index invoke (.table id) (.ofString key) source).run m = .ok ((m.tableAt id).getText key) m := by
  have hfound : ((m.tableAt id).getText key).isNil = false := by
    rw [← Bool.not_eq_true, Value.isNil_iff]
    exact h
  rw [index, show chainLimit = 1999 + 1 from rfl, indexFrom, bind_ok (rawGet_run id key)]
  simp only [hfound]
  rfl

/-- A run whose answer is of no interest, and what comes behind it. -/
theorem discard_bind (act : Run H W β) (next : Unit → Run H W α) :
    discard act >>= next = act >>= fun _ => next () := by
  rw [Functor.discard, map_const, Function.comp, map_eq_pure_bind, bind_assoc]
  simp only [pure_bind]

/-- A statement that has no variables to close, and what comes behind it. -/
theorem executeFrom_one {s : Statement} (rest : List Statement)
    (hs : ∀ line names closing values, s ≠ .locals line names (some closing) values) :
    executeFrom invoke scope none (s :: rest) = (do
      match ← execute invoke scope s with
      | .next locals => executeFrom invoke { scope with locals } none rest
      | flow => return flow : Run H W Flow) := by
  -- `rw` would try to close the equation by itself, and may or may not succeed
  rewrite [executeFrom]
  · exact bind_congr fun flow => by cases flow <;> rfl
  · exact hs

theorem repeatFrom_budget (step : σ → Run H W (σ ⊕ α)) (s : σ) :
    repeatFrom step budget s = (do
      match ← step s with
      | .inl s => repeatFrom step (budget - 1) s
      | .inr a => return a) := by
  rw [show budget = (budget - 1) + 1 from rfl, repeatFrom]
  rfl

/-- A block from its start on, which ends where a function does. -/
theorem runBlock_eq (body : List Statement) (locals : List Nat)
    (pass : Option String → List Nat → Run H W Flow) :
    ∃ next : Flow → Run H W Flow, (∀ values, next (.finish values) = pure (.finish values)) ∧
      runBlock body locals pass = pass none locals >>= next := by
  have hblock : runBlock body locals pass = runBlock body locals pass := rfl
  conv_rhs at hblock => rw [runBlock, repeatFrom_budget, bind_assoc]
  refine ⟨_, fun values => ?_, hblock⟩
  rfl

/-- The body of a function without parameters. -/
theorem runFunction_eq (invoke : Invoke H W) (chunk : String) (line : Nat) (isVariadic : Bool)
    (body : List Statement) (locals : List Nat) (arguments : List Value) :
    ∃ next : Flow → Run H W Flow, (∀ values, next (.finish values) = pure (.finish values)) ∧
      runFunction invoke chunk (.mk line 0 isVariadic body) locals arguments =
        executeFrom invoke ⟨chunk, locals, if isVariadic then arguments else []⟩ none body >>= next := by
  obtain ⟨next, hnext, hblock⟩ := runBlock_eq body locals fun start locals =>
    executeFrom invoke ⟨chunk, locals, if isVariadic then arguments else []⟩ start body
  refine ⟨next, hnext, ?_⟩
  rw [← hblock, runFunction]
  simp [adjust, Run.bind]

theorem inFrame_run (frame : Frame) (act : Run H W α) : (inFrame frame act).run m = (do
      let a ← act
      modify fun m => { m with frames := m.frames.drop 1 }
      return a : Run H W α).run { m with frames := frame :: m.frames } := rfl

/-! ## What a run comes to -/

/-- A run goes on as another one on some machine, and then somehow. -/
def ComesTo (act : Run H W α) (m : Machine H W) (first : Run H W β) (m' : Machine H W) : Prop :=
  ∃ behind : β → Run H W α, act.run m = (first >>= behind).run m'

namespace ComesTo

variable {act : Run H W α} {first : Run H W β} {stop : Stop} {m₁ m₂ : Machine H W}

theorem refl (act : Run H W α) (m : Machine H W) : ComesTo act m act m := ⟨pure, by rw [bind_pure]⟩

theorem of_run {act' : Run H W α} (hrun : act'.run m = act.run m₁) (h : ComesTo act m₁ first m') :
    ComesTo act' m first m' := by
  obtain ⟨behind, hbehind⟩ := h
  exact ⟨behind, hrun.trans hbehind⟩

theorem bind (h : ComesTo act m first m') (next : α → Run H W σ) : ComesTo (act >>= next) m first m' := by
  obtain ⟨behind, hbehind⟩ := h
  refine ⟨fun b => behind b >>= next, ?_⟩
  rw [EStateM.run_bind, hbehind, ← EStateM.run_bind, bind_assoc]

theorem inFrame {frame : Frame} (h : ComesTo act { m with frames := frame :: m.frames } first m') :
    ComesTo (inFrame frame act) m first m' := .of_run (inFrame_run frame act) (h.bind _)

/-- An error there ends the run. -/
theorem error (h : ComesTo act m first m₁) (hfails : first.run m₁ = .error stop m₂) :
    act.run m = .error stop m₂ := by
  obtain ⟨behind, hbehind⟩ := h
  exact hbehind.trans (bind_error hfails)

end ComesTo

end Run

/-! ## Calls -/

namespace Engine

open Run

variable {engine : Engine H W} {site : Option Site} {id nesting depth : Nat} {arguments : List Value}

theorem resolve_function (limit : Nat) :
    (resolve site limit (.function id) arguments : Run H W _) = return (id, arguments) := by
  cases limit <;> rfl

theorem enter_host {h : H} (hnesting : (nestingOf site).run m = .ok nesting m)
    (hfunction : m.functions[id]? = some (.host h)) :
    (enter engine invoke site id arguments).run m =
      (inFrame ⟨.function id, none, 0, site, nesting⟩ do
        return .inr (← engine.host invoke h arguments)).run m := by
  rw [enter, Run.bind_ok hnesting, Run.bind_ok Run.get_run, hfunction]

/-- A function of a script runs in a frame of its own. -/
theorem enter_closure (engine : Engine H W) (invoke : Invoke H W) (arguments : List Value) {chunk : String} {line count : Nat} {isVariadic : Bool}
    {body : List Statement} {locals : List Nat} (hnesting : (nestingOf site).run m = .ok nesting m)
    (hfunction : m.functions[id]? =
      some (.closure chunk (.mk line count isVariadic body) locals)) :
    ∃ next : Flow → Run H W ((Option Site × Value × List Value) ⊕ List Value),
      (∀ values, next (.finish values) = pure (.inr values)) ∧
      (enter engine invoke site id arguments).run m =
        (inFrame ⟨.function id, some chunk, line, site, nesting⟩
          (runFunction invoke chunk (.mk line count isVariadic body) locals arguments >>= next)).run m := by
  have henter : (enter engine invoke site id arguments).run m =
      (enter engine invoke site id arguments).run m := rfl
  conv_rhs at henter => rw [enter, Run.bind_ok hnesting, Run.bind_ok Run.get_run, hfunction]
  refine ⟨_, fun values => ?_, henter⟩
  rfl

theorem call_succ : (call engine (depth + 1) site (.function id) arguments).run m = (do
      match ← enter engine (call engine depth) site id arguments with
      | .inl c => repeatFrom (fun (c : Option Site × Value × List Value) => do
          let (callee, arguments) ← resolve c.1 standInLimit c.2.1 c.2.2
          enter engine (call engine depth) c.1 callee arguments) (budget - 1) c
      | .inr values => return values).run m := by
  rw [call, repeatFrom_budget]
  simp only [resolve_function, pure_bind]
  refine congrArg (fun act => EStateM.run act m) (bind_congr fun r => ?_)
  cases r <;> rfl

/-- A call of a function of the host runs it in a frame of its own. -/
theorem call_host {h : H} (hnesting : (nestingOf site).run m = .ok nesting m)
    (hfunction : m.functions[id]? = some (.host h)) :
    (call engine (depth + 1) site (.function id) arguments).run m =
      (inFrame ⟨.function id, none, 0, site, nesting⟩
        (engine.host (call engine depth) h arguments)).run m := by
  rw [call_succ, EStateM.run_bind, enter_host hnesting hfunction, ← EStateM.run_bind]
  simp only [inFrame, bind_assoc, pure_bind]

theorem nestingOf_run (site : Option Site) (h : m.nesting < nestingLimit) :
    ∃ k ≤ m.nesting + 1, (nestingOf site).run m = .ok k m := by
  rw [nestingOf, Run.bind_ok Run.get_run]
  cases hframes : m.frames with
  | nil => exact ⟨1, by omega, rfl⟩
  | cons f rest =>
    have hnesting : m.nesting = f.nesting := by simp [Machine.nesting, hframes]
    rw [hnesting] at h ⊢
    dsimp only
    split
    · exact ⟨f.nesting, by omega, rfl⟩
    · rw [if_neg (by omega)]
      exact ⟨f.nesting + 1, Nat.le_refl _, rfl⟩

/-- A script calls a function without another nesting. -/
theorem nestingOf_run_of_script {f : Frame} {rest : List Frame} {site : Site}
    (hframes : m.frames = f :: rest) (hscript : f.chunk.isSome) (hsite : site.kind ≠ "metamethod") :
    (nestingOf (some site)).run m = .ok f.nesting m := by
  rw [nestingOf, Run.bind_ok Run.get_run, hframes]
  simp [hscript, hsite]

end Engine
end Sandbox.Script
