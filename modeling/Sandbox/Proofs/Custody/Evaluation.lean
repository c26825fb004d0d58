import Sandbox.Proofs.Within.Evaluation
import Sandbox.Proofs.Custody.Operation
import Sandbox.Script.Evaluation

/-!
# Evaluation that keeps the loader in custody

Expressions and statements are alike for two ways of calling that are, where neither the variables in scope
nor the further arguments give the loader away.
-/

namespace Sandbox.Script

/-- What is in scope does not give the loader away. -/
structure Scope.Outside (c : Custody) (scope : Scope) : Prop where
  locals : c.cell ∉ scope.locals
  further : Clear c scope.further

theorem Scope.Outside.withLocals {c : Custody} {scope : Scope} (h : scope.Outside c)
    {locals : List Nat} (hlocals : c.cell ∉ locals) : ({ scope with locals } : Scope).Outside c :=
  ⟨hlocals, h.further⟩

attribute [grind cases] Scope.Outside

instance : Carries Flow where
  clear c
    | .next locals => c.cell ∉ locals
    | .leave => True
    | .jump _ locals => c.cell ∉ locals
    | .finish values => Clear c values
    | .tail _ f arguments => Clear c f ∧ Clear c arguments

instance : Carries Place where
  clear c
    | .variable id => id ≠ c.cell
    | .field object key _ => Clear c object ∧ Clear c key

namespace Run

variable {H W : Type} {α : Type} [Carries α] {c : Custody}

section Flow

@[simp, grind =] theorem clear_next {locals : List Nat} :
    Clear c (Flow.next locals) ↔ c.cell ∉ locals := .rfl

@[simp, grind .] theorem clear_leave : Clear c Flow.leave := trivial

@[simp, grind =] theorem clear_jump {label : String} {locals : List Nat} :
    Clear c (Flow.jump label locals) ↔ c.cell ∉ locals := .rfl

@[simp, grind =] theorem clear_finish {values : List Value} :
    Clear c (Flow.finish values) ↔ Clear c values := .rfl

@[simp, grind =] theorem clear_tail {site : Option Site} {f : Value} {arguments : List Value} :
    Clear c (Flow.tail site f arguments) ↔ Clear c f ∧ Clear c arguments := .rfl

@[simp, grind =] theorem clear_variable {id : Nat} : Clear c (Place.variable id) ↔ id ≠ c.cell := .rfl

@[simp, grind =] theorem clear_field {object key : Value} {source : Expression} :
    Clear c (Place.field object key source) ↔ Clear c object ∧ Clear c key := .rfl

end Flow

/-! ## Parts of expressions and statements -/

@[grind .] theorem first_alike {act act' : Run H W (List Value)} (hact : Alike c act act') :
    Alike c (first act) (first act') := by
  grind [first]

@[grind .] theorem clear_adjust {values : List Value} (hvalues : Clear c values) (count : Nat) :
    Clear c (adjust values count) :=
  clear_append.mpr ⟨clear_take hvalues _, clear_replicate (by simp) _⟩

/-- A variable in scope is not the one that holds the loader, and neither is the one for those that are
missing. -/
theorem getD_ne_cell {m : Machine H W} (hm : Guarded c m) {locals : List Nat}
    (hlocals : c.cell ∉ locals) (i : Nat) : locals.getD i 0 ≠ c.cell := by
  have hpos := hm.cell_pos
  rw [List.getD_eq_getElem?_getD]
  cases hget : locals[i]? with
  | none => exact fun h => by simp at h; omega
  | some id => exact fun heq => hlocals (heq ▸ List.mem_of_getElem? hget)

@[grind .] theorem slot_alike {locals : List Nat} (hlocals : c.cell ∉ locals) (i : Nat) :
    Alike c (variableValue (locals.getD i 0) : Run H W Value) (variableValue (locals.getD i 0)) :=
  fun m hm => variableValue_alike (getD_ne_cell hm hlocals i) m hm

@[grind .] theorem bind_alike {values : List Value} (hvalues : Clear c values) {locals : List Nat}
    (hlocals : c.cell ∉ locals) {next next' : List Nat → Run H W α}
    (hnext : ∀ locals, c.cell ∉ locals → Alike c (next locals) (next' locals)) :
    Alike c (Run.bind values locals >>= next) (Run.bind values locals >>= next') := by
  unfold Run.bind
  induction values generalizing locals with
  | nil => exact hnext locals hlocals
  | cons v rest ih =>
    obtain ⟨hv, hrest⟩ := clear_cons.mp hvalues
    simp only [List.foldlM_cons, bind_assoc, pure_bind]
    exact newVariable_alike hv fun id hid => ih hrest (by grind)

@[grind .] theorem putItems_alike (id count : Nat) {values : List Value} (hvalues : Clear c values) :
    Alike c (putItems id count values : Run H W Unit) (putItems id count values) :=
  modifyTable_alike id fun _ ht => Table.clear_setItems (Table.clear_reserve ht _) hvalues _

/-- A block is alike as soon as each pass through it is. -/
@[grind .] theorem runBlock_alike (body : List Statement) {locals : List Nat}
    (hlocals : c.cell ∉ locals) {pass pass' : Option String → List Nat → Run H W Flow}
    (hpass : ∀ start locals, c.cell ∉ locals → Alike c (pass start locals) (pass' start locals)) :
    Alike c (runBlock body locals pass) (runBlock body locals pass') := by
  refine .repeatFrom_of (fun s => c.cell ∉ s.2) (fun s hs m hm => ?_) _ hlocals
  obtain ⟨heq, hkept⟩ := hpass s.1 s.2 hs m hm
  simp only [EStateM.run_bind, ← heq, true_and]
  cases hrun : (pass s.1 s.2).run m with
  | ok flow m' =>
    rw [hrun] at hkept
    cases flow with
    | jump name locals =>
      dsimp only
      cases hasLabel body name
      · exact hkept
      · exact hkept
    | _ => exact hkept
  | error stop m' =>
    rw [hrun] at hkept
    exact hkept

@[grind .] theorem runBody_alike {locals : List Nat} (hlocals : c.cell ∉ locals)
    {body body' : Run H W Flow} (hbody : Alike c body body') :
    Alike c (runBody locals body) (runBody locals body') := by
  refine .bind hbody fun flow hflow => ?_
  cases flow <;> exact .pure (by simp_all)

@[grind .] theorem loopNumber_alike (what : String) (v : Value) :
    Alike c (loopNumber what v : Run H W Binary64) (loopNumber what v) := by
  grind [loopNumber]

@[grind .] theorem integerLimit_alike (limit : Value) (step : Int64) :
    Alike c (integerLimit limit step : Run H W (Option Int64)) (integerLimit limit step) := by
  unfold integerLimit
  grind

section Loops

variable {round round' : Value → Run H W (Option Flow)}
  (hround : ∀ v, Clear c v → Alike c (round v) (round' v)) {done : Flow} (hdone : Clear c done)

include hround hdone

@[grind .] theorem integerLoop_alike (start limit step : Int64) :
    Alike c (integerLoop start limit step round done) (integerLoop start limit step round' done) := by
  unfold integerLoop
  grind

@[grind .] theorem floatLoop_alike (start limit step : Binary64) :
    Alike c (floatLoop start limit step round done) (floatLoop start limit step round' done) := by
  unfold floatLoop
  grind

@[grind .] theorem numericLoop_alike (start limit step : Value) :
    Alike c (numericLoop start limit step round done) (numericLoop start limit step round' done) := by
  have hinteger (a b s : Int64) := integerLoop_alike hround hdone a b s
  have hfloat (a b s : Binary64) := floatLoop_alike hround hdone a b s
  unfold numericLoop
  split
  case h_1 a s =>
    dsimp only
    split
    · refine .bind (raiseText_alike _) fun _ _ => .bind (integerLimit_alike _ _) fun b _ => ?_
      cases b
      · exact .pure hdone
      · exact hinteger a _ s
    · refine .bind (integerLimit_alike _ _) fun b _ => ?_
      cases b
      · exact .pure hdone
      · exact hinteger a _ s
  case h_2 =>
    refine .bind (loopNumber_alike _ _) fun b _ => .bind (loopNumber_alike _ _) fun s _ =>
      .bind (loopNumber_alike _ _) fun a _ => ?_
    dsimp only
    split
    · exact .bind (raiseText_alike _) fun _ _ => hfloat a b s
    · exact hfloat a b s

end Loops

section Calls

variable {invoke invoke' : Invoke H W} (hinvoke : CallsAlike c invoke invoke')

include hinvoke

@[grind .] theorem assignTo_alike {place : Place} (hplace : Clear c place) {value : Value}
    (hvalue : Clear c value) : Alike c (assignTo invoke place value) (assignTo invoke' place value) := by
  unfold assignTo
  grind

@[grind .] theorem genericLoop_alike (line count : Nat) {f state start : Value} (hf : Clear c f)
    (hstate : Clear c state) (hstart : Clear c start) {round round' : List Value → Run H W (Option Flow)}
    (hround : ∀ vs, Clear c vs → Alike c (round vs) (round' vs)) {done : Flow} (hdone : Clear c done) :
    Alike c (genericLoop invoke line count f state start round done)
      (genericLoop invoke' line count f state start round' done) := by
  refine .repeatFrom (fun control hcontrol => .bind (atLine_alike _) fun _ _ => ?_) _ hstart
  refine .bind (hinvoke.clear _ _ _ hf (by grind)) fun values hvalues => ?_
  have hhead : Clear c (values.headD .nil) := by grind
  dsimp only
  split
  · exact .pure (by grind)
  · refine .bind (hround _ (clear_adjust hvalues _)) fun flow hflow => ?_
    cases flow <;> exact .pure (by grind)

@[grind .] theorem closing_alike (name : String) {value : Value} (hvalue : Clear c value)
    {act act' : Run H W Flow} (hact : Alike c act act') :
    Alike c (closing invoke name value act) (closing invoke' name value act') := by
  unfold closing
  split
  · exact hact
  · refine .bind (metafield_alike _ _) fun close hclose => ?_
    have hevent {e : Value} (he : Clear c e) :=
      callEvent_alike hinvoke "__close" hclose (show Clear c [value, e] by grind)
    dsimp only
    split
    · refine .bind (raiseText_alike _) fun _ _ => .bind (protect_alike hact) fun outcome houtcome => ?_
      cases outcome with
      | ok flow => cases flow <;> grind
      | error e => grind
    · refine .bind (protect_alike hact) fun outcome houtcome => ?_
      cases outcome with
      | ok flow => cases flow <;> grind
      | error e => grind

/-! ## Expressions -/

set_option linter.unusedSectionVars false in
mutual

theorem evaluate_alike {scope : Scope} (hscope : scope.Outside c) :
    (e : Expression) → Alike c (evaluate invoke scope e) (evaluate invoke' scope e)
  | .nil | .bool _ | .int _ | .float _ | .text _ | .variadic | .variable _ => by
    unfold evaluate; grind
  | .function f => by
    have hnew := newFunction_alike (H := H) (W := W) (c := c) (f := .closure scope.chunk f scope.locals)
      hscope.locals
    unfold evaluate; grind
  | .index _ object key => by
    have hobject := evaluate_alike hscope object
    have hkey := evaluate_alike hscope key
    unfold evaluate; grind
  | .call _ callee given => by
    have hcallee := evaluate_alike hscope callee
    have hgiven := evaluateAll_alike hscope given
    unfold evaluate; grind
  | .method _ object _ given => by
    have hobject := evaluate_alike hscope object
    have hgiven := evaluateAll_alike hscope given
    unfold evaluate; grind
  | .arithmetic _ _ a b | .comparison _ _ a b | .concat _ a b | .and a b | .or a b => by
    have ha := evaluate_alike hscope a
    have hb := evaluate_alike hscope b
    unfold evaluate; grind
  | .not a | .negative _ a | .complement _ a | .length _ a | .single a => by
    have ha := evaluate_alike hscope a
    unfold evaluate; grind
  | .table items => by
    have hfill (id : Nat) := fill_alike hscope id 0 clear_nil items
    unfold evaluate; grind

theorem evaluateAll_alike {scope : Scope} (hscope : scope.Outside c) :
    (es : List Expression) → Alike c (evaluateAll invoke scope es) (evaluateAll invoke' scope es)
  | [] => by unfold evaluateAll; grind
  | [e] => by
    have he := evaluate_alike hscope e
    unfold evaluateAll; grind
  | e :: e' :: rest => by
    have he := evaluate_alike hscope e
    have hrest := evaluateAll_alike hscope (e' :: rest)
    unfold evaluateAll; grind

theorem fill_alike {scope : Scope} (hscope : scope.Outside c) (id count : Nat) {waiting : List Value}
    (hwaiting : Clear c waiting) : (items : List Item) →
      Alike c (fill invoke scope id count waiting items) (fill invoke' scope id count waiting items)
  | [] => by unfold fill; grind
  | .pair _ key value :: rest => by
    have hkey := evaluate_alike hscope key
    have hvalue := evaluate_alike hscope value
    have hrest := fill_alike hscope id count hwaiting rest
    unfold fill; grind
  | [.next e] => by
    have he := evaluate_alike hscope e
    unfold fill; grind
  | .next e :: item :: rest => by
    have he := evaluate_alike hscope e
    have hrest (count : Nat) {waiting : List Value} (hwaiting : Clear c waiting) :=
      fill_alike hscope id count hwaiting (item :: rest)
    unfold fill; grind

end

/-! ## Statements -/

@[grind .] theorem places_alike {scope : Scope} (hscope : scope.Outside c) (targets : List Expression) :
    Alike c (places invoke scope targets) (places invoke' scope targets) := by
  have hvalue := evaluate_alike hinvoke hscope
  induction targets with
  | nil => exact .pure clear_nil
  | cons target rest ih =>
    unfold places
    split
    case h_1 heq => cases heq
    case h_2 slot _ heq =>
      cases heq
      intro m hm
      have hslot := clear_variable.mpr (getD_ne_cell hm hscope.locals slot.index)
      exact Alike.bind ih (fun _ hps => .pure (clear_cons.mpr ⟨hslot, hps⟩)) m hm
    case h_3 heq => cases heq; grind
    case h_4 heq => cases heq; exact ih

@[grind .] theorem finish_alike {scope : Scope} (hscope : scope.Outside c) (values : List Expression) :
    Alike c (finish invoke scope values) (finish invoke' scope values) := by
  have hvalue := evaluate_alike hinvoke hscope
  have hvalues := evaluateAll_alike hinvoke hscope
  unfold finish
  split
  · grind
  · grind
  · grind

set_option linter.unusedSectionVars false in
mutual

theorem execute_alike {scope : Scope} (hscope : scope.Outside c) :
    (s : Statement) → Alike c (execute invoke scope s) (execute invoke' scope s)
  | .locals _ _ _ values | .assign _ _ values => by
    have hvalues := evaluateAll_alike hinvoke hscope values
    unfold execute; grind
  | .call e => by
    have he := evaluate_alike hinvoke hscope e
    unfold execute; grind
  | .localFunction f => by
    have hnew (locals : List Nat) (hlocals : c.cell ∉ locals) :=
      newFunction_alike (H := H) (W := W) (f := .closure scope.chunk f locals) hlocals
    unfold execute; grind
  | .result _ | .leave | .goto _ | .label _ _ => by
    unfold execute; grind
  | .block body => by
    have hbody (locals : List Nat) (hlocals : c.cell ∉ locals) := block_alike hscope body hlocals
    unfold execute; grind
  | .whileLoop condition body => by
    have hcondition := evaluate_alike hinvoke hscope condition
    have hbody (locals : List Nat) (hlocals : c.cell ∉ locals) := block_alike hscope body hlocals
    unfold execute; grind
  | .repeatLoop body condition => by
    have hbody := block_alike hscope body hscope.locals
    have hcondition {locals : List Nat} (hlocals : c.cell ∉ locals) :=
      evaluate_alike hinvoke (hscope.withLocals hlocals) condition
    unfold execute
    refine .repeatFrom (fun _ _ => .bind hbody fun flow hflow => ?_) _ (clear_of_inert ())
    cases flow with
    | next locals =>
      refine .bind (first_alike (hcondition hflow)) fun stop _ => .pure ?_
      cases stop.isTrue
      · exact clear_inl.mpr (clear_of_inert ())
      · exact clear_inr.mpr hscope.locals
    | leave => exact .pure (clear_inr.mpr hscope.locals)
    | _ => exact .pure (clear_inr.mpr hflow)
  | .numericFor _ start stop none body => by
    have hstart := evaluate_alike hinvoke hscope start
    have hstop := evaluate_alike hinvoke hscope stop
    have hbody (locals : List Nat) (hlocals : c.cell ∉ locals) := block_alike hscope body hlocals
    unfold execute; grind
  | .numericFor _ start stop (some step) body => by
    have hstart := evaluate_alike hinvoke hscope start
    have hstop := evaluate_alike hinvoke hscope stop
    have hstep := evaluate_alike hinvoke hscope step
    have hbody (locals : List Nat) (hlocals : c.cell ∉ locals) := block_alike hscope body hlocals
    unfold execute; grind
  | .genericFor _ _ values body => by
    have hvalues := evaluateAll_alike hinvoke hscope values
    have hbody (locals : List Nat) (hlocals : c.cell ∉ locals) := block_alike hscope body hlocals
    unfold execute; grind
  | .ifElse condition yes no => by
    have hcondition := evaluate_alike hinvoke hscope condition
    have hyes := block_alike hscope yes hscope.locals
    have hno := block_alike hscope no hscope.locals
    unfold execute; grind

/-- A block in the scope, with any variables in it. -/
theorem block_alike {scope : Scope} (hscope : scope.Outside c) (body : List Statement) {locals : List Nat}
    (hlocals : c.cell ∉ locals) :
    Alike c (runBlock body locals fun start locals =>
        executeFrom invoke { scope with locals } start body)
      (runBlock body locals fun start locals =>
        executeFrom invoke' { scope with locals } start body) :=
  runBlock_alike body hlocals fun start _ hlocals =>
    executeFrom_alike (hscope.withLocals hlocals) start body

theorem executeFrom_alike {scope : Scope} (hscope : scope.Outside c) (start : Option String) :
    (body : List Statement) →
      Alike c (executeFrom invoke scope start body) (executeFrom invoke' scope start body)
  | [] => by unfold executeFrom; grind
  | s :: rest => by
    have hs := execute_alike hscope s
    have hrest {scope : Scope} (hscope : scope.Outside c) (start : Option String) :=
      executeFrom_alike hscope start rest
    unfold executeFrom
    split
    case h_1 name n depth =>
      split
      · refine hrest (hscope.withLocals fun hmem => hscope.locals (List.mem_of_mem_drop hmem)) none
      · exact hrest hscope _
    case h_2 => exact hrest hscope _
    case h_3 line names i values =>
      refine .bind hs fun flow hflow => ?_
      cases flow with
      | next locals =>
        exact .bind (slot_alike hflow _) fun value hvalue =>
          closing_alike hinvoke _ hvalue (hrest (hscope.withLocals hflow) none)
      | _ => exact .pure hflow
    case h_4 =>
      refine .bind hs fun flow hflow => ?_
      cases flow with
      | next locals => exact hrest (hscope.withLocals hflow) none
      | _ => exact .pure hflow

end

@[grind .] theorem runFunction_alike (chunk : String) (f : Function) {locals : List Nat}
    (hlocals : c.cell ∉ locals) {arguments : List Value} (harguments : Clear c arguments) :
    Alike c (runFunction invoke chunk f locals arguments) (runFunction invoke' chunk f locals arguments) := by
  obtain ⟨line, count, isVariadic, body⟩ := f
  refine bind_alike (clear_adjust harguments _) hlocals fun locals hlocals => ?_
  have hscope : Scope.Outside c ⟨chunk, locals, if isVariadic then arguments.drop count else []⟩ := by
    refine ⟨hlocals, ?_⟩
    cases isVariadic
    · exact clear_nil
    · exact clear_drop harguments count
  exact block_alike hinvoke hscope body hlocals

end Calls

end Run
end Sandbox.Script
