import Sandbox.Proofs.Within.Operation
import Sandbox.Script.Engine

/-!
# Evaluation within a relation

What expressions, statements and calls do to a machine. A permissive relation permits all that an engine
does as soon as it permits what the functions that are not from scripts do for any way of calling values
that is within the relation itself.
-/

namespace Sandbox.Script

namespace Run

variable {H W : Type} {α : Type} {R : Machine H W → Machine H W → Prop} (hR : Permissive R)

include hR

/-! ## Parts of expressions and statements -/

@[grind .] theorem first_within {act : Run H W (List Value)} (hact : Within R act) :
    Within R (first act) := by
  grind [first]

@[grind .] theorem bind_within (values : List Value) (locals : List Nat) :
    Within R (Run.bind values locals : Run H W (List Nat)) := by
  grind [Run.bind]

@[grind .] theorem putItems_within (id count : Nat) (values : List Value) :
    Within R (putItems id count values : Run H W Unit) :=
  modifyTable_within hR id fun _ ht =>
  (ht.reserve _).setItems values _

@[grind .] theorem runBlock_within (body : List Statement) (locals : List Nat)
    {pass : Option String → List Nat → Run H W Flow} (hpass : ∀ start locals, Within R (pass start locals)) :
    Within R (runBlock body locals pass) := by
  grind [runBlock]

@[grind .] theorem runBody_within (locals : List Nat) {body : Run H W Flow} (hbody : Within R body) :
    Within R (runBody locals body) := by
  grind [runBody]

@[grind .] theorem loopNumber_within (what : String) (v : Value) :
    Within R (loopNumber what v : Run H W Binary64) := by
  grind [loopNumber]

@[grind .] theorem integerLimit_within (limit : Value) (step : Int64) :
    Within R (integerLimit limit step : Run H W (Option Int64)) := by
  unfold integerLimit
  grind

section Loops

variable {round : Value → Run H W (Option Flow)} (hround : ∀ v, Within R (round v))

include hround

@[grind .] theorem integerLoop_within (start limit step : Int64) (done : Flow) :
    Within R (integerLoop start limit step round done) := by
  unfold integerLoop
  grind

@[grind .] theorem floatLoop_within (start limit step : Binary64) (done : Flow) :
    Within R (floatLoop start limit step round done) := by
  unfold floatLoop
  grind

@[grind .] theorem numericLoop_within (start limit step : Value) (done : Flow) :
    Within R (numericLoop start limit step round done) := by
  unfold numericLoop
  grind

end Loops

section Calls

variable {invoke : Invoke H W}
  (hinvoke : Calls R invoke)

include hinvoke

@[grind .] theorem assignTo_within (place : Place) (value : Value) :
    Within R (assignTo invoke place value) := by
  unfold assignTo
  grind

@[grind .] theorem genericLoop_within (line count : Nat) (f state start : Value)
    {round : List Value → Run H W (Option Flow)} (hround : ∀ vs, Within R (round vs)) (done : Flow) :
    Within R (genericLoop invoke line count f state start round done) := by
  unfold genericLoop
  grind

/-- What is done at the end of the scope of a value that is to be closed. -/
theorem closing_behind_within (value close : Value) {act : Run H W Flow} (hact : Within R act) :
    Within R (do
      match ← protect act with
      | .ok flow =>
        let flow ← match flow with
          | .tail site f arguments => Flow.finish <$> invoke site f arguments
          | flow => pure flow
        discard (callEvent invoke "__close" close [value, .nil])
        return flow
      | .error e =>
        discard (callEvent invoke "__close" close [value, e])
        raise e) := by
  refine .bind hR (protect_within hR hact) fun outcome => ?_
  cases outcome with
  | ok flow => cases flow <;> grind
  | error e => grind

@[grind .] theorem closing_within (name : String) (value : Value) {act : Run H W Flow}
    (hact : Within R act) : Within R (closing invoke name value act) := by
  have hbehind (close : Value) := closing_behind_within hR hinvoke value close hact
  unfold closing
  split
  · exact hact
  · refine .bind hR (metafield_within hR _ _) fun close => ?_
    dsimp only
    split
    · exact .bind hR (raiseText_within hR _) fun _ => hbehind close
    · exact hbehind close

/-! ## Expressions -/

set_option linter.unusedSectionVars false in
mutual

theorem evaluate_within (scope : Scope) :
    (e : Expression) → Within R (evaluate invoke scope e)
  | .nil | .bool _ | .int _ | .float _ | .text _ | .variadic | .variable _ | .function _ => by
    unfold evaluate; grind
  | .index _ object key => by
    have hobject := evaluate_within scope object
    have hkey := evaluate_within scope key
    unfold evaluate; grind
  | .call _ callee given => by
    have hcallee := evaluate_within scope callee
    have hgiven := evaluateAll_within scope given
    unfold evaluate; grind
  | .method _ object _ given => by
    have hobject := evaluate_within scope object
    have hgiven := evaluateAll_within scope given
    unfold evaluate; grind
  | .arithmetic _ _ a b | .comparison _ _ a b | .concat _ a b | .and a b | .or a b => by
    have ha := evaluate_within scope a
    have hb := evaluate_within scope b
    unfold evaluate; grind
  | .not a | .negative _ a | .complement _ a | .length _ a | .single a => by
    have ha := evaluate_within scope a
    unfold evaluate; grind
  | .table items => by
    have hfill (id : Nat) := fill_within scope id 0 [] items
    have hnew := newTable_within hR (Table.sound_withSizes (constructorSizes items).1
      (constructorSizes items).2)
    unfold evaluate; grind

theorem evaluateAll_within (scope : Scope) :
    (es : List Expression) → Within R (evaluateAll invoke scope es)
  | [] => by unfold evaluateAll; grind
  | [e] => by
    have he := evaluate_within scope e
    unfold evaluateAll; grind
  | e :: e' :: rest => by
    have he := evaluate_within scope e
    have hrest := evaluateAll_within scope (e' :: rest)
    unfold evaluateAll; grind

theorem fill_within (scope : Scope) (id count : Nat) (waiting : List Value) :
    (items : List Item) → Within R (fill invoke scope id count waiting items)
  | [] => by unfold fill; grind
  | .pair _ key value :: rest => by
    have hkey := evaluate_within scope key
    have hvalue := evaluate_within scope value
    have hrest := fill_within scope id count waiting rest
    unfold fill; grind
  | [.next e] => by
    have he := evaluate_within scope e
    unfold fill; grind
  | .next e :: item :: rest => by
    have he := evaluate_within scope e
    have hrest (count : Nat) (waiting : List Value) := fill_within scope id count waiting (item :: rest)
    unfold fill; grind

end

/-! ## Statements -/

@[grind .] theorem places_within (scope : Scope) (targets : List Expression) :
    Within R (places invoke scope targets) := by
  fun_induction places invoke scope targets with grind [evaluate_within]

@[grind .] theorem finish_within (scope : Scope) (values : List Expression) :
    Within R (finish invoke scope values) := by
  have hvalue := evaluate_within hR hinvoke scope
  have hvalues := evaluateAll_within hR hinvoke scope
  unfold finish
  grind

set_option linter.unusedSectionVars false in
mutual

theorem execute_within (scope : Scope) :
    (s : Statement) → Within R (execute invoke scope s)
  | .locals _ _ _ values | .assign _ _ values => by
    have hvalues := evaluateAll_within hR hinvoke scope values
    unfold execute; grind
  | .call e => by
    have he := evaluate_within hR hinvoke scope e
    unfold execute; grind
  | .localFunction _ | .result _ | .leave | .goto _ | .label _ _ => by
    unfold execute; grind
  | .block body => by
    have hbody := block_within scope body
    unfold execute; grind
  | .whileLoop condition body => by
    have hcondition := evaluate_within hR hinvoke scope condition
    have hbody := block_within scope body
    unfold execute; grind
  | .repeatLoop body condition => by
    have hcondition (locals : List Nat) := evaluate_within hR hinvoke { scope with locals } condition
    have hbody := block_within scope body
    unfold execute; grind
  | .numericFor _ start stop none body => by
    have hstart := evaluate_within hR hinvoke scope start
    have hstop := evaluate_within hR hinvoke scope stop
    have hbody := block_within scope body
    unfold execute; grind
  | .numericFor _ start stop (some step) body => by
    have hstart := evaluate_within hR hinvoke scope start
    have hstop := evaluate_within hR hinvoke scope stop
    have hstep := evaluate_within hR hinvoke scope step
    have hbody := block_within scope body
    unfold execute; grind
  | .genericFor _ _ values body => by
    have hvalues := evaluateAll_within hR hinvoke scope values
    have hbody := block_within scope body
    unfold execute; grind
  | .ifElse condition yes no => by
    have hcondition := evaluate_within hR hinvoke scope condition
    have hyes := block_within scope yes
    have hno := block_within scope no
    unfold execute; grind

/-- A block in the scope, with any variables in it. -/
theorem block_within (scope : Scope) (body : List Statement) (locals : List Nat) :
    Within R (runBlock body locals fun start locals =>
      executeFrom invoke { scope with locals } start body) :=
  runBlock_within hR body locals fun start locals =>
    executeFrom_within { scope with locals } start body

theorem executeFrom_within (scope : Scope) (start : Option String) :
    (body : List Statement) → Within R (executeFrom invoke scope start body)
  | [] => by unfold executeFrom; grind
  | s :: rest => by
    have hs := execute_within scope s
    have hrest (scope : Scope) (start : Option String) := executeFrom_within scope start rest
    unfold executeFrom; grind

end

@[grind .] theorem runFunction_within (chunk : String) (f : Function) (locals : List Nat)
    (arguments : List Value) : Within R (runFunction invoke chunk f locals arguments) := by
  unfold runFunction
  grind [executeFrom_within]

end Calls

end Run

namespace Engine

open Run

variable {H W : Type} {R : Machine H W → Machine H W → Prop} (hR : Permissive R)

include hR

theorem raiseUncallable_within {α : Type} (site : Option Site) (f : Value) :
    Within R (raiseUncallable site f : Run H W α) := by
  grind [raiseUncallable]

theorem resolve_within (site : Option Site) (n : Nat) (f : Value) (arguments : List Value) :
    Within R (resolve site n f arguments : Run H W (Nat × List Value)) := by
  induction n generalizing f arguments with
  | zero => unfold resolve; grind [raiseUncallable_within]
  | succ n ih => unfold resolve; grind [raiseUncallable_within]

theorem nestingOf_within (site : Option Site) : Within R (nestingOf site : Run H W Nat) := by
  unfold nestingOf
  grind

variable {engine : Engine H W}

theorem enter_within {invoke : Invoke H W} (hinvoke : Calls R invoke)
    (hroutine : ∀ r arguments, Within R (engine.routine invoke r arguments))
    (hhost : ∀ h arguments, Within R (engine.host invoke h arguments)) (site : Option Site) (id : Nat)
    (arguments : List Value) : Within R (enter engine invoke site id arguments) := by
  have hclosure := runFunction_within hR hinvoke
  refine .bind hR (nestingOf_within hR site) fun nesting => .bind hR (.get hR) fun m => ?_
  split
  case h_1 => exact .pure hR _
  case h_2 chunk function locals _ =>
    obtain ⟨line, count, isVariadic, body⟩ := function
    refine inFrame_within hR _ (.bind hR (hclosure chunk _ locals arguments) fun flow => ?_)
    cases flow <;> grind
  case h_3 => grind
  case h_4 => grind

/-- All calls are within a permissive relation that permits what the functions that are not from scripts
do, to whatever depth they may call on. -/
theorem call_within
    (hroutine : ∀ depth, Calls R (engine.call depth) →
      ∀ r arguments, Within R (engine.routine (engine.call depth) r arguments))
    (hhost : ∀ depth, Calls R (engine.call depth) →
      ∀ h arguments, Within R (engine.host (engine.call depth) h arguments)) (depth : Nat) :
    Calls R (engine.call depth) := by
  induction depth with
  | zero => exact ⟨fun _ _ _ => raiseText_within hR _⟩
  | succ depth ih =>
    refine ⟨fun site f arguments => ?_⟩
    have henter := enter_within hR ih (hroutine depth ih) (hhost depth ih)
    unfold call
    grind [resolve_within]

end Engine
end Sandbox.Script
