import Sandbox.Script.Syntax
import Sandbox.Script.Token

/-!
# Parsing

The grammar of chunks as functions on the tokens that are left. Parsing resolves variables, and checks
that jumps have a label in reach, that constants are not assigned to and that loops are around each
`break`. `Function.parse` makes a chunk a function with any number of arguments.
-/

namespace Sandbox.Script

namespace Parser

/-- A local variable in scope. -/
structure Variable where
  name : String
  isConstant : Bool
  /-- How many functions are around its own one. -/
  level : Nat

/-- A jump without a label so far. -/
structure Jump where
  /-- The label, or none for a jump behind the loop. -/
  label : Option String
  line : Nat
  /-- The number of variables in scope that a label has to keep. -/
  depth : Nat

/-- A block that is open. -/
structure Scope where
  isLoop : Bool
  /-- The number of variables in scope at its start. -/
  depth : Nat
  /-- The labels with their lines. -/
  labels : List (String × Nat) := []
  jumps : List Jump := []

/-- What parsing keeps. -/
structure State where
  rest : List Lexeme
  ending : Except Flaw Nat
  /-- The line of the token before. -/
  lastLine : Nat := 1
  /-- The variables in scope, the innermost one first. -/
  locals : List Variable
  /-- The open blocks of the function, the innermost one first. -/
  scopes : List Scope := []
  /-- How many functions are around the current one. -/
  level : Nat := 0
  isVariadic : Bool := true
  /-- How many statements and operands are nested. -/
  nesting : Nat := 0

end Parser

/-- A parser that yields a value of a type or a flaw. -/
abbrev Parse := EStateM Flaw Parser.State

namespace Parser

/-! ## Tokens -/

/-- How deep statements and operands may be nested. -/
def nestingLimit : Nat := 195

/-- The current token, or none at the end. -/
def current : Parse (Option Token) := return (← get).rest.head?.map (·.token)

/-- The token behind the current one. -/
def ahead : Parse (Option Token) := return (← get).rest[1]?.map (·.token)

/-- The line of the current token. -/
def line : Parse Nat := do
  let s ← get
  match s.rest, s.ending with
  | l :: _, _ => return l.line
  | [], .ok n => return n
  | [], .error f => return f.line

/-- The line of the token before. -/
def lastLine : Parse Nat := return (← get).lastLine

/-- A flaw at the current token. -/
def failNear {α : Type} (cause : Flaw.Cause) : Parse α := do
  let s ← get
  let near := match s.rest with
    | l :: _ => l.shown
    | [] => Lexer.shownEnd
  throw ⟨← line, cause, some near⟩

/-- A flaw in the meaning of what has been read. -/
def failHere {α : Type} (cause : Flaw.Cause) : Parse α := do throw ⟨← line, cause, none⟩

/-- A flaw of the tokens counts as soon as the token in front of it is used up. -/
def checkEnding : Parse Unit := do
  let s ← get
  match s.rest, s.ending with
  | [], .error f => throw f
  | _, _ => return ()

/-- Uses up the current token. -/
def advance : Parse Unit := do
  let s ← get
  match s.rest with
  | [] => return ()
  | l :: rest => do
    set { s with rest, lastLine := l.line }
    checkEnding

/-- The current token is a mark or a reserved word of a spelling. -/
def isAt (spelling : String) : Parse Bool := do
  match ← current with
  | some (.mark s) | some (.word s) => return s == spelling
  | _ => return false

/-- Uses up a mark or a word if it is the current token. -/
def accept (spelling : String) : Parse Bool := do
  if ← isAt spelling then
    advance
    return true
  else return false

/-- Uses up a mark or a word that has to come here. -/
def expect (spelling : String) : Parse Unit := do
  unless ← accept spelling do failNear (.expected s!"'{spelling}'")

/-- Uses up what closes a construct that a token on a line has opened. -/
def expectClosing (closing opening : String) (start : Nat) : Parse Unit := do
  unless ← accept closing do
    if start = (← line) then failNear (.expected s!"'{closing}'")
    else failNear (.unclosed s!"'{closing}'" s!"'{opening}'" start)

/-- A name that has to come here. -/
def name : Parse String := do
  match ← current with
  | some (.name s) => do
    advance
    return s
  | _ => failNear (.expected "<name>")

/-- The current token ends a block, where `until` may be one that does. -/
def atBlockEnd (withUntil : Bool) : Parse Bool := do
  match ← current with
  | none => return true
  | some (.word s) => return ["else", "elseif", "end"].contains s || (withUntil && s == "until")
  | _ => return false

/-- Parses what is one level further in. -/
def nested {α : Type} (p : Parse α) : Parse α := do
  let s ← get
  if s.nesting ≥ nestingLimit then failHere .tooDeep
  set { s with nesting := s.nesting + 1 }
  let a ← p
  modify fun t => { t with nesting := s.nesting }
  return a

/-! ## Variables and jumps -/

/-- The number of variables in scope. -/
def depth : Parse Nat := return (← get).locals.length

/-- Brings a variable into scope. -/
def declare (name : String) (isConstant : Bool := false) : Parse Unit :=
  modify fun s =>
    { s with locals := { name, isConstant, level := s.level } :: s.locals }

/-- The place of a variable in a list. -/
def place? (name : String) : List Variable → Nat → Option (Nat × Variable)
  | [], _ => none
  | v :: rest, i => if v.name = name then some (i, v) else place? name rest (i + 1)

/-- The use of a variable, if one of the name is in scope. -/
def slot? (name : String) : Parse (Option Slot) := do
  let s ← get
  return (place? name s.locals 0).map fun (i, v) => ⟨i, name, decide (v.level < s.level)⟩

/-- The use of a name: a local variable, or a field of the environment. -/
def use (name : String) : Parse Expression := do
  match ← slot? name with
  | some slot => return .variable slot
  | none =>
    let environment ← slot? environmentName
    return .index (← lastLine)
      (.variable (environment.getD ⟨0, environmentName, true⟩)) (.text name.toUTF8)

/-- Refuses to assign to a constant. -/
def checkAssignable (target : Expression) : Parse Unit := do
  match target with
  | .variable slot =>
    if ((← get).locals[slot.index]?.map (·.isConstant)).getD false then
      failHere (.constant slot.name)
  | _ => return ()

/-- Changes the innermost block. -/
def modifyScope (f : Scope → Scope) : Parse Unit :=
  modify fun s =>
    match s.scopes with
    | scope :: rest => { s with scopes := f scope :: rest }
    | [] => s

/-- Records a jump without a label. -/
def addJump (label : Option String) (line : Nat) : Parse Unit := do
  let depth ← depth
  modifyScope fun scope => { scope with jumps := scope.jumps ++ [⟨label, line, depth⟩] }

/-- The line of a label in reach. -/
def labelLine? (label : String) : Parse (Option Nat) :=
  return (← get).scopes.findSome? fun scope => scope.labels.lookup label

/-- Settles the jumps to a label, which keeps some of the variables. -/
def settleJumps (label : String) (depth : Nat) : Parse Unit := do
  let s ← get
  let jumps := (s.scopes.head?.map fun scope => scope.jumps).getD []
  match jumps.find? fun j => j.label == some label && j.depth < depth with
  | some j =>
    let entered := s.locals[s.locals.length - 1 - j.depth]?
    failHere (.jumpIntoScope label j.line ((entered.map (·.name)).getD ""))
  | none =>
    modifyScope fun scope => { scope with jumps := jumps.filter fun j => j.label != some label }

/-- Opens a block, parses what is in it and closes the block. Its jumps that have no label are handed
on; a loop takes those that leave it. -/
def inScope {α : Type} (isLoop : Bool) (p : Parse α) : Parse α := do
  let start ← depth
  modify fun s => { s with scopes := { isLoop, depth := start } :: s.scopes }
  let a ← p
  let s ← get
  let left : List Jump := match s.scopes with
    | scope :: _ => if isLoop then scope.jumps.filter (fun j => j.label.isSome) else scope.jumps
    | [] => []
  let left := left.map fun j => { j with depth := min j.depth start }
  set { s with
    scopes := s.scopes.drop 1
    locals := s.locals.drop (s.locals.length - start) }
  modifyScope fun scope => { scope with jumps := scope.jumps ++ left }
  return a

/-- The first jump that has no label is a flaw. -/
def checkJumps : Parse Unit := do
  match (← get).scopes.head?.bind (·.jumps.head?) with
  | some ⟨some label, line, _⟩ => failHere (.noLabel label line)
  | some ⟨none, line, _⟩ => failHere (.leaveOutside line)
  | none => return ()

/-- Parses the parts of a function, in a block of its own. -/
def inFunction {α : Type} (p : Parse α) : Parse α := do
  let s ← get
  set { s with scopes := [{ isLoop := false, depth := s.locals.length }], level := s.level + 1 }
  let a ← p
  checkJumps
  modify fun t =>
    { t with
      scopes := s.scopes, level := s.level, isVariadic := s.isVariadic, locals := s.locals }
  return a

/-! ## Operators -/

/-- A binary operator. -/
inductive Connective
  | arithmetic (op : Operator)
  | comparison (op : Comparison)
  | concat
  | and
  | or

/-- The binary operator that a spelling stands for, and how strongly it binds to the left and to the
right. -/
def connective? : Token → Option (Connective × Nat × Nat)
  | .word "or" => some (.or, 1, 1)
  | .word "and" => some (.and, 2, 2)
  | .mark "<" => some (.comparison .below, 3, 3)
  | .mark ">" => some (.comparison .above, 3, 3)
  | .mark "<=" => some (.comparison .atMost, 3, 3)
  | .mark ">=" => some (.comparison .atLeast, 3, 3)
  | .mark "~=" => some (.comparison .unequal, 3, 3)
  | .mark "==" => some (.comparison .equal, 3, 3)
  | .mark "|" => some (.arithmetic .or, 4, 4)
  | .mark "~" => some (.arithmetic .xor, 5, 5)
  | .mark "&" => some (.arithmetic .and, 6, 6)
  | .mark "<<" => some (.arithmetic .shiftLeft, 7, 7)
  | .mark ">>" => some (.arithmetic .shiftRight, 7, 7)
  | .mark ".." => some (.concat, 9, 8)
  | .mark "+" => some (.arithmetic .add, 10, 10)
  | .mark "-" => some (.arithmetic .sub, 10, 10)
  | .mark "*" => some (.arithmetic .mul, 11, 11)
  | .mark "/" => some (.arithmetic .div, 11, 11)
  | .mark "//" => some (.arithmetic .floorDiv, 11, 11)
  | .mark "%" => some (.arithmetic .mod, 11, 11)
  | .mark "^" => some (.arithmetic .pow, 14, 13)
  | _ => none

/-- How strongly an operator in front of its operand binds. -/
def unaryStrength : Nat := 12

/-- Applies a binary operator. -/
def Connective.apply (op : Connective) (line : Nat) (a b : Expression) : Expression :=
  match op with
  | .arithmetic op => .arithmetic line op a b
  | .comparison op => .comparison line op a b
  | .concat => .concat line a b
  | .and => .and a b
  | .or => .or a b

/-- The unary operator that a token stands for. -/
def unary? : Token → Option (Nat → Expression → Expression)
  | .word "not" => some fun _ a => .not a
  | .mark "-" => some .negative
  | .mark "~" => some .complement
  | .mark "#" => some .length
  | _ => none

/-! ## The grammar -/

/-- The traits of a new variable: whether one is a constant and whether it is closed. -/
def traits : Parse (Bool × Bool) := do
  unless ← accept "<" do return (false, false)
  let word ← name
  expect ">"
  match word with
  | "const" => return (true, false)
  | "close" => return (true, true)
  | _ => failHere (.unknownAttribute word)

/-- The names of new variables with their traits. -/
def newNames : Nat → Parse (List (String × Bool × Bool))
  | 0 => failHere .tooDeep
  | fuel + 1 => do
    let word ← name
    let (isConstant, isClosed) ← traits
    if ← accept "," then
      let rest ← newNames fuel
      if isClosed && rest.any (·.2.2) then failHere .closingTwice
      return (word, isConstant, isClosed) :: rest
    else return [(word, isConstant, isClosed)]

/-- Names with commas between them, behind a first one. -/
def moreNames : Nat → Parse (List String)
  | 0 => failHere .tooDeep
  | fuel + 1 => do
    if ← accept "," then
      let word ← name
      return word :: (← moreNames fuel)
    else return []

/-- The parameters of a function up to the closing parenthesis. -/
def parameters : Nat → Parse (List String × Bool)
  | 0 => failHere .tooDeep
  | fuel + 1 => do
    if ← accept "..." then return ([], true)
    match ← current with
    | some (.name word) =>
      advance
      if ← accept "," then
        let (rest, isVariadic) ← parameters fuel
        return (word :: rest, isVariadic)
      else return ([word], false)
    | _ => failNear (.expected "<name> or '...'")

/-- The expression can stand to the left of an assignment. -/
def isTarget : Expression → Bool
  | .variable _ | .index .. => true
  | _ => false

/-- The expression is a call. -/
def isCall : Expression → Bool
  | .call .. | .method .. => true
  | _ => false

mutual

/-- An expression whose operators bind more strongly than a limit. -/
def expression (fuel : Nat) (limit : Nat) : Parse Expression :=
  match fuel with
  | 0 => failHere .tooDeep
  | fuel + 1 => nested do
    let unary := (← current).bind unary?
    let first ← match unary with
      | some op => do
        let line ← line
        advance
        pure (op line (← expression fuel unaryStrength))
      | none => simple fuel
    operators fuel limit first
  termination_by structural fuel

/-- The binary operators behind an operand. -/
def operators (fuel : Nat) (limit : Nat) (first : Expression) : Parse Expression :=
  match fuel with
  | 0 => failHere .tooDeep
  | fuel + 1 => do
    match (← current).bind connective? with
    | some (op, left, right) =>
      if left > limit then
        let line ← line
        advance
        let second ← expression fuel right
        operators fuel limit (op.apply line first second)
      else return first
    | none => return first
  termination_by structural fuel

/-- An expression without operators. -/
def simple (fuel : Nat) : Parse Expression :=
  match fuel with
  | 0 => failHere .tooDeep
  | fuel + 1 => do
    let take (e : Expression) : Parse Expression := do
      advance
      return e
    match ← current with
    | some (.int n) => take (.int n)
    | some (.float x) => take (.float x)
    | some (.text s) => take (.text s)
    | some (.word "nil") => take .nil
    | some (.word "true") => take (.bool true)
    | some (.word "false") => take (.bool false)
    | some (.mark "...") =>
      unless (← get).isVariadic do failNear .variadicOutside
      take .variadic
    | some (.mark "\x7b") => constructor fuel
    | some (.word "function") =>
      let line ← line
      advance
      return .function (← functionBody fuel false line)
    | _ => suffixed fuel
  termination_by structural fuel

/-- A name or an expression in parentheses. -/
def primary (fuel : Nat) : Parse Expression :=
  match fuel with
  | 0 => failHere .tooDeep
  | fuel + 1 => do
    match ← current with
    | some (.name word) =>
      advance
      use word
    | some (.mark "(") =>
      let line ← line
      advance
      let e ← expression fuel 0
      expectClosing ")" "(" line
      return .single e
    | _ => failNear .unexpectedSymbol
  termination_by structural fuel

/-- A primary expression with its fields, indices and calls. -/
def suffixed (fuel : Nat) : Parse Expression :=
  match fuel with
  | 0 => failHere .tooDeep
  | fuel + 1 => do suffixes fuel (← primary fuel)
  termination_by structural fuel

/-- The fields, indices and calls behind an expression. -/
def suffixes (fuel : Nat) (object : Expression) : Parse Expression :=
  match fuel with
  | 0 => failHere .tooDeep
  | fuel + 1 => do
    match ← current with
    | some (.mark ".") =>
      advance
      let word ← name
      suffixes fuel (.index (← lastLine) object (.text word.toUTF8))
    | some (.mark "[") =>
      advance
      let key ← expression fuel 0
      expect "]"
      suffixes fuel (.index (← lastLine) object key)
    | some (.mark ":") =>
      advance
      let word ← name
      let line ← line
      let given ← arguments fuel
      suffixes fuel (.method line object word given)
    | some (.mark "(") | some (.mark "\x7b") | some (.text _) =>
      let line ← line
      let given ← arguments fuel
      suffixes fuel (.call line object given)
    | _ => return object
  termination_by structural fuel

/-- The arguments of a call. -/
def arguments (fuel : Nat) : Parse (List Expression) :=
  match fuel with
  | 0 => failHere .tooDeep
  | fuel + 1 => do
    match ← current with
    | some (.text s) =>
      advance
      return [.text s]
    | some (.mark "\x7b") => return [← constructor fuel]
    | some (.mark "(") =>
      let line ← line
      advance
      if ← accept ")" then return []
      let given ← expressions fuel
      expectClosing ")" "(" line
      return given
    | _ => failNear (.expected "function arguments")
  termination_by structural fuel

/-- Expressions with commas between them. -/
def expressions (fuel : Nat) : Parse (List Expression) :=
  match fuel with
  | 0 => failHere .tooDeep
  | fuel + 1 => do
    let first ← expression fuel 0
    if ← accept "," then return first :: (← expressions fuel)
    else return [first]
  termination_by structural fuel

/-- A table constructor. -/
def constructor (fuel : Nat) : Parse Expression :=
  match fuel with
  | 0 => failHere .tooDeep
  | fuel + 1 => do
    let line ← line
    expect "\x7b"
    let items ← items fuel
    expectClosing "\x7d" "\x7b" line
    return .table items
  termination_by structural fuel

/-- The items of a table constructor. -/
def items (fuel : Nat) : Parse (List Item) :=
  match fuel with
  | 0 => failHere .tooDeep
  | fuel + 1 => do
    if ← isAt "\x7d" then return []
    let item ← item fuel
    if (← accept ",") || (← accept ";") then return item :: (← items fuel)
    else return [item]
  termination_by structural fuel

/-- An item of a table constructor. -/
def item (fuel : Nat) : Parse Item :=
  match fuel with
  | 0 => failHere .tooDeep
  | fuel + 1 => do
    match ← current, ← ahead with
    | some (.name word), some (.mark "=") =>
      advance
      advance
      let value ← expression fuel 0
      return .pair (← lastLine) (.text word.toUTF8) value
    | some (.mark "["), _ =>
      advance
      let key ← expression fuel 0
      expect "]"
      expect "="
      let value ← expression fuel 0
      return .pair (← lastLine) key value
    | _, _ => return .next (← expression fuel 0)
  termination_by structural fuel

/-- The parameters and the body of a function that begins on a line. -/
def functionBody (fuel : Nat) (isMethod : Bool) (line : Nat) : Parse Function :=
  match fuel with
  | 0 => failHere .tooDeep
  | fuel + 1 => inFunction do
    expect "("
    let (names, isVariadic) ← if ← isAt ")" then pure ([], false) else parameters fuel
    let names := if isMethod then "self" :: names else names
    expect ")"
    names.forM fun word => declare word
    modify fun s => { s with isVariadic }
    let body ← statements fuel
    expectClosing "end" "function" line
    return .mk line names.length isVariadic body
  termination_by structural fuel

/-- The statements of a block. -/
def statements (fuel : Nat) : Parse (List Statement) :=
  match fuel with
  | 0 => failHere .tooDeep
  | fuel + 1 => do
    if ← atBlockEnd true then return []
    if ← isAt "return" then statement fuel
    else
      let first ← statement fuel
      return first ++ (← statements fuel)
  termination_by structural fuel

/-- A block with a scope of its own. -/
def block (fuel : Nat) : Parse (List Statement) :=
  match fuel with
  | 0 => failHere .tooDeep
  | fuel + 1 => inScope false (statements fuel)
  termination_by structural fuel

/-- A statement. An empty one is no statement, and a label takes empty ones with it. -/
def statement (fuel : Nat) : Parse (List Statement) :=
  match fuel with
  | 0 => failHere .tooDeep
  | fuel + 1 => nested do
    let line ← line
    match ← current with
    | some (.mark ";") =>
      advance
      return []
    | some (.word "if") =>
      advance
      return [← conditional fuel line]
    | some (.word "while") =>
      advance
      let condition ← expression fuel 0
      let body ← inScope true do
        expect "do"
        block fuel
      expectClosing "end" "while" line
      return [.whileLoop condition body]
    | some (.word "do") =>
      advance
      let body ← block fuel
      expectClosing "end" "do" line
      return [.block body]
    | some (.word "for") =>
      advance
      return [← forLoop fuel line]
    | some (.word "repeat") =>
      advance
      inScope true do
        inScope false do
          let body ← statements fuel
          expectClosing "until" "repeat" line
          return [.repeatLoop body (← expression fuel 0)]
    | some (.word "function") =>
      advance
      return [← functionStatement fuel line]
    | some (.word "local") =>
      advance
      if ← accept "function" then
        let word ← name
        declare word
        return [.localFunction (← functionBody fuel false (← lastLine))]
      else return [← localVariables fuel]
    | some (.mark "::") =>
      advance
      label fuel line (← name)
    | some (.word "return") =>
      advance
      let values ← if (← atBlockEnd true) || (← isAt ";") then pure [] else expressions fuel
      discard (accept ";")
      return [.result values]
    | some (.word "break") =>
      advance
      addJump none line
      return [.leave]
    | some (.word "goto") =>
      advance
      let place ← Parser.line
      let word ← name
      if (← labelLine? word).isNone then addJump (some word) place
      return [.goto word]
    | _ => return [← expressionStatement fuel]
  termination_by structural fuel

/-- What follows `if` or `elseif`. -/
def conditional (fuel : Nat) (line : Nat) : Parse Statement :=
  match fuel with
  | 0 => failHere .tooDeep
  | fuel + 1 => do
    let condition ← expression fuel 0
    expect "then"
    let yes ← block fuel
    if ← accept "elseif" then return .ifElse condition yes [← conditional fuel line]
    let no ← if ← accept "else" then block fuel else pure []
    expectClosing "end" "if" line
    return .ifElse condition yes no
  termination_by structural fuel

/-- What follows `for`. -/
def forLoop (fuel : Nat) (line : Nat) : Parse Statement :=
  match fuel with
  | 0 => failHere .tooDeep
  | fuel + 1 => inScope true do
    let first ← name
    if ← accept "=" then
      let start ← expression fuel 0
      expect ","
      let stop ← expression fuel 0
      let step ← if ← accept "," then pure (some (← expression fuel 0)) else pure none
      expect "do"
      let place ← lastLine
      let body ← inScope false do
        declare first
        block fuel
      expectClosing "end" "for" line
      return .numericFor place start stop step body
    else if (← isAt ",") || (← isAt "in") then
      let names := first :: (← moreNames fuel)
      expect "in"
      let place ← Parser.line
      let values ← expressions fuel
      expect "do"
      let body ← inScope false do
        names.forM fun word => declare word
        block fuel
      expectClosing "end" "for" line
      return .genericFor place names.length values body
    else failNear (.expected "'=' or 'in'")
  termination_by structural fuel

/-- What follows `function` at the start of a statement. -/
def functionStatement (fuel : Nat) (line : Nat) : Parse Statement :=
  match fuel with
  | 0 => failHere .tooDeep
  | fuel + 1 => do
    let target ← fieldPath fuel (← use (← name))
    let (target, isMethod) ← if ← accept ":" then do
        let word ← name
        pure (Expression.index (← lastLine) target (.text word.toUTF8), true)
      else pure (target, false)
    let body ← functionBody fuel isMethod line
    checkAssignable target
    return .assign line [target] [.function body]
  termination_by structural fuel

/-- Fields behind the name of a function. -/
def fieldPath (fuel : Nat) (object : Expression) : Parse Expression :=
  match fuel with
  | 0 => failHere .tooDeep
  | fuel + 1 => do
    if ← accept "." then
      let word ← name
      fieldPath fuel (.index (← lastLine) object (.text word.toUTF8))
    else return object
  termination_by structural fuel

/-- What follows `local`. The variables come into scope behind their values. -/
def localVariables (fuel : Nat) : Parse Statement :=
  match fuel with
  | 0 => failHere .tooDeep
  | fuel + 1 => do
    let names ← newNames fuel
    let values ← if ← accept "=" then expressions fuel else pure []
    names.forM fun (word, isConstant, _) => declare word isConstant
    return .locals (← lastLine) (names.map (·.1)) (names.findIdx? (·.2.2)) values
  termination_by structural fuel

/-- What follows the name of a label. A label at the end of a block keeps no variable of it. -/
def label (fuel : Nat) (line : Nat) (word : String) : Parse (List Statement) :=
  match fuel with
  | 0 => failHere .tooDeep
  | fuel + 1 => do
    expect "::"
    let rest ← emptyStatements fuel
    if let some other ← labelLine? word then failHere (.labelTwice word other)
    let start := ((← get).scopes.head?.map (·.depth)).getD 0
    let kept ← if ← atBlockEnd false then pure start else depth
    modifyScope fun scope => { scope with labels := (word, line) :: scope.labels }
    settleJumps word kept
    return .label word kept :: rest
  termination_by structural fuel

/-- Labels and empty statements. -/
def emptyStatements (fuel : Nat) : Parse (List Statement) :=
  match fuel with
  | 0 => failHere .tooDeep
  | fuel + 1 => do
    if (← isAt ";") || (← isAt "::") then
      let first ← statement fuel
      return first ++ (← emptyStatements fuel)
    else return []
  termination_by structural fuel

/-- A call or an assignment. -/
def expressionStatement (fuel : Nat) : Parse Statement :=
  match fuel with
  | 0 => failHere .tooDeep
  | fuel + 1 => do
    let first ← suffixed fuel
    if (← isAt "=") || (← isAt ",") then
      let targets ← targets fuel first
      expect "="
      let values ← expressions fuel
      return .assign (← lastLine) targets values
    else if isCall first then return .call first
    else failNear .noCall
  termination_by structural fuel

/-- The targets of an assignment from a first one on. -/
def targets (fuel : Nat) (first : Expression) : Parse (List Expression) :=
  match fuel with
  | 0 => failHere .tooDeep
  | fuel + 1 => do
    unless isTarget first do failNear .noCall
    checkAssignable first
    if ← accept "," then
      let next ← suffixed fuel
      return first :: (← targets fuel next)
    else return [first]
  termination_by structural fuel

end

/-- A whole chunk. -/
def chunk (fuel : Nat) : Parse Function := do
  checkEnding
  inFunction do
    modify fun s => { s with isVariadic := true }
    let body ← statements fuel
    unless (← current).isNone do failNear (.expected Lexer.shownEnd)
    return .mk 0 0 true body

/-- More than the number of steps of any parse of some tokens. -/
def fuelFor (tokens : Tokens) : Nat := 16 * (tokens.lexemes.length + 2)

end Parser

/-- The chunk that a text holds. The environment is the only variable around it. -/
def Function.parse (source : ByteArray) : Except Flaw Function :=
  let tokens := Tokens.ofBytes source
  let start : Parser.State :=
    { rest := tokens.lexemes, ending := tokens.ending
      locals := [⟨environmentName, false, 0⟩] }
  match (Parser.chunk (Parser.fuelFor tokens)).run start with
  | .ok f _ => .ok f
  | .error flaw _ => .error flaw

end Sandbox.Script
