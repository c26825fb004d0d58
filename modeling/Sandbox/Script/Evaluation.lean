import Sandbox.Script.Operation

/-!
# Evaluation

What expressions and statements do on a machine. Evaluation follows the syntax; a call goes to a given
way of calling values, so that nothing here calls itself through a function value. An expression has a
list of values, which is one value but for calls and `...`. A statement tells where control goes next.
-/

namespace Sandbox.Script

/-- What is known where code is evaluated. -/
structure Scope where
  chunk : String
  /-- The variables in scope, the innermost one first. -/
  locals : List Nat
  /-- The further arguments of the function. -/
  further : List Value

/-- Where control goes behind a statement. -/
inductive Flow
  /-- To the next statement, with these variables in scope. -/
  | next (locals : List Nat)
  | leave
  | jump (label : String) (locals : List Nat)
  | finish (values : List Value)
  /-- The results are those of a call that takes the place of the running function. -/
  | tail (site : Option Site) (f : Value) (arguments : List Value)

/-- Where an assignment puts a value. -/
inductive Place
  | variable (id : Nat)
  | field (object key : Value) (source : Expression)

namespace Run

variable {H W : Type} {α : Type}

/-- The first value of a list, or nil. -/
def first (act : Run H W (List Value)) : Run H W Value := return (← act).headD .nil

/-- The first `count` values, with nil for those that are missing. -/
def adjust (values : List Value) (count : Nat) : List Value :=
  values.take count ++ List.replicate (count - values.length) .nil

/-- New variables in front of those in scope. -/
def bind (values : List Value) (locals : List Nat) : Run H W (List Nat) :=
  values.foldlM (fun vs v => return (← newVariable v) :: vs) locals

/-- How many values a table constructor collects before it puts them into the table. -/
def constructorBatch : Nat := 50

/-- Puts the values of a constructor behind the first `count` ones. -/
def putItems (id count : Nat) (values : List Value) : Run H W Unit :=
  modifyTable id fun t =>
    (values.foldl (fun (acc : Table × Nat) v => (acc.1.setIndex acc.2 v, acc.2 + 1))
      (t.reserve (count + values.length), count + 1)).1

/-- The parts of a constructor that it makes room for. -/
def constructorSizes (items : List Item) : Nat × Nat :=
  let isNext : Item → Bool
    | .next _ => true
    | .pair .. => false
  let isOpen := match items.getLast? with
    | some (.next (.call ..)) | some (.next (.method ..)) | some (.next .variadic) => true
    | _ => false
  let next := items.countP isNext
  (if isOpen then next - 1 else next, items.length - next)

/-- Assigns a value. -/
def assignTo (invoke : Invoke H W) (place : Place) (value : Value) : Run H W Unit :=
  match place with
  | .variable id => setVariable id value
  | .field object key source => setIndex invoke object key value source

/-- The label stands in a block. -/
def hasLabel (body : List Statement) (name : String) : Bool :=
  body.any fun
    | .label n _ => n == name
    | _ => false

/-- Runs a block, from each label of it to which a jump in it leads. -/
def runBlock (body : List Statement) (locals : List Nat)
    (pass : Option String → List Nat → Run H W Flow) : Run H W Flow :=
  repeatFrom (fun (start : Option String × List Nat) => do
    match ← pass start.1 start.2 with
    | .jump name locals =>
      if hasLabel body name then return .inl (some name, locals)
      else return .inr (.jump name locals)
    | flow => return .inr flow) budget (none, locals)

/-- Runs the body of a loop once: none if the loop goes on, and otherwise where control goes behind
it. -/
def runBody (locals : List Nat) (body : Run H W Flow) : Run H W (Option Flow) := do
  match ← body with
  | .next _ => return none
  | .leave => return some (.next locals)
  | flow => return some flow

/-- A number as a control value. -/
def loopNumber (what : String) (v : Value) : Run H W Binary64 := do
  match (Numeral.ofValue? v).bind Numeral.float with
  | some x => return x
  | none => raiseText s!"bad 'for' {what} (number expected, got {← typeNameOf v})"

/-- The limit of a loop over integers, or none if the loop has no round. -/
def integerLimit (limit : Value) (step : Int64) : Run H W (Option Int64) := do
  match Numeral.ofValue? limit with
  | some (.int n) => return some n
  | _ =>
    let x ← loopNumber "limit" limit
    let isUp := 0 < step.toInt
    if !x.isFinite || x.floorInt < -2 ^ 63 || x.floorInt ≥ 2 ^ 63 then
      if x.isNaN || x.isNegative then return if isUp then none else some Int64.minValue
      else return if isUp then some Int64.maxValue else none
    else
      let floor := x.floorInt
      let whole := x.toInt?.isSome
      return some (.ofInt (if isUp || whole then floor else floor + 1))

/-- A numeric loop over integers. -/
def integerLoop (start limit step : Int64) (round : Value → Run H W (Option Flow))
    (done : Flow) : Run H W Flow := do
  let isUp := 0 < step.toInt
  if (if isUp then start.toInt > limit.toInt else start.toInt < limit.toInt) then return done
  let count := (limit.toInt - start.toInt).natAbs / step.toInt.natAbs
  repeatFrom (fun (s : Int64 × Nat) => do
    match ← round (.int s.1) with
    | some flow => return .inr flow
    | none =>
      match s.2 with
      | 0 => return .inr done
      | left + 1 => return .inl (s.1 + step, left)) budget (start, count)

/-- A numeric loop over floats. -/
def floatLoop (start limit step : Binary64) (round : Value → Run H W (Option Flow))
    (done : Flow) : Run H W Flow := do
  let goesOn (x : Binary64) : Bool :=
    if Binary64.zero.lt step then x.le limit else limit.le x
  repeatFrom (fun (x : Binary64) => do
    if goesOn x then
      match ← round (.float x) with
      | some flow => return .inr flow
      | none => return .inl (x.add step)
    else return .inr done) budget start

/-- A numeric loop. It runs over integers if its start and its step are integers. -/
def numericLoop (start limit step : Value) (round : Value → Run H W (Option Flow)) (done : Flow) :
    Run H W Flow := do
  match start, step with
  | .int a, .int s => do
    if s = 0 then raiseText "'for' step is zero"
    match ← integerLimit limit s with
    | some b => integerLoop a b s round done
    | none => return done
  | _, _ => do
    let b ← loopNumber "limit" limit
    let s ← loopNumber "step" step
    let a ← loopNumber "initial value" start
    if s.isZero then raiseText "'for' step is zero"
    floatLoop a b s round done

/-- The name of the function that a loop calls. -/
def iteratorSite : Site := ⟨"for iterator", "for iterator"⟩

/-- A loop over what a function yields, up to the first nil. -/
def genericLoop (invoke : Invoke H W) (line count : Nat) (f state start : Value)
    (round : List Value → Run H W (Option Flow)) (done : Flow) : Run H W Flow :=
  repeatFrom (fun (control : Value) => do
    atLine line
    let values ← invoke (some iteratorSite) f [state, control]
    let control := values.headD .nil
    if control.isNil then return .inr done
    match ← round (adjust values count) with
    | some flow => return .inr flow
    | none => return .inl control) budget start

/-- Runs to the end of the scope of a value and closes the value then, also where an error is raised
or control leaves the scope. -/
def closing (invoke : Invoke H W) (name : String) (value : Value) (act : Run H W Flow) :
    Run H W Flow := do
  if !value.isTrue then act
  else
    let close ← metafield value "__close"
    if close.isNil then raiseText s!"variable '{name}' got a non-closable value"
    match ← protect act with
    | .ok flow =>
      let flow ← match flow with
        | .tail site f arguments => Flow.finish <$> invoke site f arguments
        | flow => pure flow
      discard (callEvent invoke "__close" close [value, .nil])
      return flow
    | .error e =>
      discard (callEvent invoke "__close" close [value, e])
      raise e

/-! ## Expressions and statements -/

mutual

/-- The values of an expression. -/
def evaluate (invoke : Invoke H W) (scope : Scope) : Expression → Run H W (List Value)
  | .nil => return [.nil]
  | .bool b => return [.bool b]
  | .int n => return [.int n]
  | .float x => return [.float x]
  | .text s => return [.text s]
  | .variadic => return scope.further
  | .variable slot => return [← variableValue (scope.locals.getD slot.index 0)]
  | .index line object key => do
    let o ← first (evaluate invoke scope object)
    let k ← first (evaluate invoke scope key)
    atLine line
    return [← index invoke o k object]
  | .call line callee given => do
    let f ← first (evaluate invoke scope callee)
    let values ← evaluateAll invoke scope given
    atLine line
    invoke callee.site? f values
  | .method line object name given => do
    let o ← first (evaluate invoke scope object)
    atLine line
    let f ← index invoke o (.ofString name) object
    let values ← evaluateAll invoke scope given
    atLine line
    invoke (some ⟨"method", name⟩) f (o :: values)
  | .function f => return [← newFunction (.closure scope.chunk f scope.locals)]
  | .arithmetic line op a b => do
    let x ← first (evaluate invoke scope a)
    let y ← first (evaluate invoke scope b)
    atLine line
    return [← arithmetic invoke op x y a b]
  | .comparison line op a b => do
    let x ← first (evaluate invoke scope a)
    let y ← first (evaluate invoke scope b)
    atLine line
    return [.bool (← compare invoke op x y)]
  | .concat line a b => do
    let x ← first (evaluate invoke scope a)
    let y ← first (evaluate invoke scope b)
    atLine line
    return [← concat invoke x y a b]
  | .and a b => do
    let x ← first (evaluate invoke scope a)
    if x.isTrue then return [← first (evaluate invoke scope b)] else return [x]
  | .or a b => do
    let x ← first (evaluate invoke scope a)
    if x.isTrue then return [x] else return [← first (evaluate invoke scope b)]
  | .not a => return [.bool !(← first (evaluate invoke scope a)).isTrue]
  | .negative line a => do
    let x ← first (evaluate invoke scope a)
    atLine line
    return [← negative invoke x a]
  | .complement line a => do
    let x ← first (evaluate invoke scope a)
    atLine line
    return [← complement invoke x a]
  | .length line a => do
    let x ← first (evaluate invoke scope a)
    atLine line
    return [← length invoke x a]
  | .table items => do
    let (arraySize, nodeCount) := constructorSizes items
    let id ← newTable (.withSizes arraySize nodeCount)
    fill invoke scope id 0 [] items
    return [.table id]
  | .single a => return [← first (evaluate invoke scope a)]

/-- The values of a list of expressions: all values of the last one and one of each other. -/
def evaluateAll (invoke : Invoke H W) (scope : Scope) : List Expression → Run H W (List Value)
  | [] => return []
  | [e] => evaluate invoke scope e
  | e :: rest => do
    let v ← first (evaluate invoke scope e)
    return v :: (← evaluateAll invoke scope rest)

/-- Puts items into a table that has `count` indices and waits for some more values, the last one
first. -/
def fill (invoke : Invoke H W) (scope : Scope) (id count : Nat) (waiting : List Value) :
    List Item → Run H W Unit
  | [] => putItems id count waiting.reverse
  | .pair line key value :: rest => do
    let k ← first (evaluate invoke scope key)
    let v ← first (evaluate invoke scope value)
    atLine line
    rawSet id k v
    fill invoke scope id count waiting rest
  | [.next e] => do
    let values ← evaluate invoke scope e
    putItems id count (waiting.reverse ++ values)
  | .next e :: rest => do
    let v ← first (evaluate invoke scope e)
    let waiting := v :: waiting
    if waiting.length = constructorBatch then
      putItems id count waiting.reverse
      fill invoke scope id (count + constructorBatch) [] rest
    else fill invoke scope id count waiting rest

/-- Where the targets of an assignment are. -/
def places (invoke : Invoke H W) (scope : Scope) : List Expression → Run H W (List Place)
  | [] => return []
  | .variable slot :: rest => do
    let place := Place.variable (scope.locals.getD slot.index 0)
    return place :: (← places invoke scope rest)
  | .index _ object key :: rest => do
    let o ← first (evaluate invoke scope object)
    let k ← first (evaluate invoke scope key)
    return .field o k object :: (← places invoke scope rest)
  | _ :: rest => places invoke scope rest

/-- A call at the end of a function takes the place of the function. -/
def finish (invoke : Invoke H W) (scope : Scope) : List Expression → Run H W Flow
  | [.call line callee given] => do
    let f ← first (evaluate invoke scope callee)
    let values ← evaluateAll invoke scope given
    atLine line
    return .tail callee.site? f values
  | [.method line object name given] => do
    let o ← first (evaluate invoke scope object)
    atLine line
    let f ← index invoke o (.ofString name) object
    let values ← evaluateAll invoke scope given
    atLine line
    return .tail (some ⟨"method", name⟩) f (o :: values)
  | values => return .finish (← evaluateAll invoke scope values)

/-- Runs a statement. -/
def execute (invoke : Invoke H W) (scope : Scope) : Statement → Run H W Flow
  | .locals line names _ values => do
    let vs ← evaluateAll invoke scope values
    atLine line
    return .next (← bind (adjust vs names.length) scope.locals)
  | .localFunction f => do
    let id ← newVariable .nil
    let locals := id :: scope.locals
    setVariable id (← newFunction (.closure scope.chunk f locals))
    return .next locals
  | .assign line targets values => do
    let ps ← places invoke scope targets
    let vs ← evaluateAll invoke scope values
    atLine line
    (ps.zip (adjust vs ps.length)).reverse.forM fun (p, v) => assignTo invoke p v
    return .next scope.locals
  | .call e => do
    discard (evaluate invoke scope e)
    return .next scope.locals
  | .block body => do
    match ← runBlock body scope.locals (fun start locals =>
        executeFrom invoke { scope with locals } start body) with
    | .next _ => return .next scope.locals
    | flow => return flow
  | .whileLoop condition body =>
    repeatFrom (fun (_ : Unit) => do
      if (← first (evaluate invoke scope condition)).isTrue then
        let round ← runBody scope.locals <| runBlock body scope.locals fun start locals =>
          executeFrom invoke { scope with locals } start body
        match round with
        | some flow => return .inr flow
        | none => return .inl ()
      else return .inr (.next scope.locals)) budget ()
  | .repeatLoop body condition =>
    repeatFrom (fun (_ : Unit) => do
      let flow ← runBlock body scope.locals fun start locals =>
        executeFrom invoke { scope with locals } start body
      match flow with
      | .next locals =>
        let stop ← first (evaluate invoke { scope with locals } condition)
        return if stop.isTrue then .inr (.next scope.locals) else .inl ()
      | .leave => return .inr (.next scope.locals)
      | flow => return .inr flow) budget ()
  | .numericFor line start stop none body => do
    let a ← first (evaluate invoke scope start)
    let b ← first (evaluate invoke scope stop)
    atLine line
    numericLoop a b (.int 1) (fun i => do
      let locals := (← newVariable i) :: scope.locals
      runBody scope.locals <| runBlock body locals fun start locals =>
        executeFrom invoke { scope with locals } start body) (.next scope.locals)
  | .numericFor line start stop (some step) body => do
    let a ← first (evaluate invoke scope start)
    let b ← first (evaluate invoke scope stop)
    let s ← first (evaluate invoke scope step)
    atLine line
    numericLoop a b s (fun i => do
      let locals := (← newVariable i) :: scope.locals
      runBody scope.locals <| runBlock body locals fun start locals =>
        executeFrom invoke { scope with locals } start body) (.next scope.locals)
  | .genericFor line count values body => do
    let vs ← evaluateAll invoke scope values
    let value (i : Nat) : Value := vs.getD i .nil
    atLine line
    closing invoke "(for state)" (value 3) <|
      genericLoop invoke line count (value 0) (value 1) (value 2) (fun vs => do
        let locals ← bind vs scope.locals
        runBody scope.locals <| runBlock body locals fun start locals =>
          executeFrom invoke { scope with locals } start body) (.next scope.locals)
  | .ifElse condition yes no => do
    let c ← first (evaluate invoke scope condition)
    let flow ← if c.isTrue then
        runBlock yes scope.locals fun start locals =>
          executeFrom invoke { scope with locals } start yes
      else
        runBlock no scope.locals fun start locals =>
          executeFrom invoke { scope with locals } start no
    match flow with
    | .next _ => return .next scope.locals
    | flow => return flow
  | .result values => finish invoke scope values
  | .leave => return .leave
  | .goto label => return .jump label scope.locals
  | .label _ _ => return .next scope.locals

/-- Runs the statements of a block from its start or from a label on. At a label no more variables are
in scope than it keeps. -/
def executeFrom (invoke : Invoke H W) (scope : Scope) (start : Option String) :
    List Statement → Run H W Flow
  | [] => return .next scope.locals
  | s :: rest => do
    match start, s with
    | some name, .label n depth =>
      if n = name then
        let locals := scope.locals.drop (scope.locals.length - depth)
        executeFrom invoke { scope with locals } none rest
      else executeFrom invoke scope start rest
    | some _, _ => executeFrom invoke scope start rest
    | none, .locals _ names (some i) _ =>
      match ← execute invoke scope s with
      | .next locals =>
        let value ← variableValue (locals.getD (names.length - 1 - i) 0)
        closing invoke (names.getD i "") value <|
          executeFrom invoke { scope with locals } none rest
      | flow => return flow
    | none, _ =>
      match ← execute invoke scope s with
      | .next locals => executeFrom invoke { scope with locals } none rest
      | flow => return flow

end

/-- Runs the body of a function. -/
def runFunction (invoke : Invoke H W) (chunk : String) (f : Function) (locals : List Nat)
    (arguments : List Value) : Run H W Flow :=
  match f with
  | .mk _ count isVariadic body => do
    let locals ← bind (adjust arguments count) locals
    let further := if isVariadic then arguments.drop count else []
    runBlock body locals fun start locals =>
      executeFrom invoke { chunk, locals, further } start body

end Run
end Sandbox.Script
