/-!
# Arguments of the command line

The command line names one of three actions. The options for the configuration file and the profile may
stand before or behind its name; behind it they win. Behind `--`, and behind the first argument of a
script, nothing is an option.
-/

namespace Sandbox.Command

/-- What is to be done. -/
inductive Action
  /-- Shows whether the configuration is sound. -/
  | doctor
  /-- Runs a script with arguments. -/
  | run (script : String) (arguments : List String)
  /-- Lists a directory. -/
  | list (path : String)
  deriving DecidableEq, Repr

/-- The options of all actions. -/
structure Options where
  config : Option String := none
  profile : Option String := none
  deriving DecidableEq, Repr

/-- What a command line asks for. -/
inductive Invocation
  | version
  | help
  /-- Something that cannot be done. -/
  | misuse
  | action (options : Options) (action : Action)
  deriving DecidableEq, Repr

/-- An argument by its form. -/
inductive Word
  /-- The argument behind which nothing is an option. -/
  | escape
  | long (name : String) (value : Option String)
  | short (letters : List Char)
  | plain
  deriving DecidableEq, Repr

/-- The form of an argument. -/
def Word.of (argument : String) : Word :=
  match argument.toList with
  | ['-', '-'] => .escape
  | '-' :: '-' :: rest =>
    match rest.span (· ≠ '=') with
    | (name, []) => .long (String.ofList name) none
    | (name, _ :: value) => .long (String.ofList name) (some (String.ofList value))
  | '-' :: c :: letters => .short (c :: letters)
  | _ => .plain

/-- What may follow the plain arguments. -/
inductive Tail
  | nothing
  /-- The name of an action and all that belongs to it. -/
  | action
  /-- Arguments of any form. -/
  | free
  deriving DecidableEq, Repr

/-- What may stand in a part of the command line. -/
structure Grammar where
  /-- The flag for the version may stand here. -/
  hasVersion : Bool := false
  /-- How many plain arguments there may be. -/
  places : Nat := 0
  tail : Tail := .nothing

/-- Why reading stops early. -/
abbrev Reading := Except Invocation

/-- Sets an option, which may be set once. A configuration file has to have a name. -/
def Options.set (o : Options) (name value : String) : Reading Options :=
  if name = "config" then
    if value.isEmpty || o.config.isSome then throw .misuse
    else return { o with config := some value }
  else if o.profile.isSome then throw .misuse
  else return { o with profile := some value }

/-- The names of the options. -/
def optionNames : List String := ["config", "profile"]

/-- A long flag is known. -/
def Grammar.knowsLong (g : Grammar) (name : String) : Bool :=
  optionNames.contains name || name == "help" || (g.hasVersion && name == "version")

/-- A short flag is known. -/
def Grammar.knowsShort (g : Grammar) (letter : Char) : Bool :=
  letter == 'h' || (g.hasVersion && letter == 'V')

/-- What a known flag asks for. -/
def flag (isVersion : Bool) : Invocation := if isVersion then .version else .help

/-- An argument of this form is a plain one. Where a free tail may begin, so is an unknown flag. -/
def Grammar.isPlain (g : Grammar) (inTail : Bool) (w : Word) : Bool :=
  let free := inTail && g.tail = .free
  match w with
  | .plain => true
  | .escape => false
  | .long name _ => free && !g.knowsLong name
  | .short letters => free && letters.any (!g.knowsShort ·)

/-- Reads the options and the plain arguments with the tail behind them. -/
def read (g : Grammar) (o : Options) (plain : List String) :
    List String → Reading (Options × List String)
  | [] => return (o, plain)
  | argument :: rest =>
    let inTail := plain.length ≥ g.places
    let word := Word.of argument
    if g.isPlain inTail word then
      if !inTail then read g o (plain ++ [argument]) rest
      else if g.tail = .nothing then throw .misuse
      else return (o, plain ++ argument :: rest)
    else match word, rest with
      | .escape, rest =>
        if g.tail = .free || (g.tail = .nothing && plain.length + rest.length ≤ g.places) then
          return (o, plain ++ rest)
        else throw .misuse
      | .long name value, rest =>
        if optionNames.contains name then
          match value, rest with
          | some value, rest => do read g (← o.set name value) plain rest
          | none, value :: rest =>
            if g.isPlain inTail (Word.of value) then do read g (← o.set name value) plain rest
            else throw .misuse
          | none, [] => throw .misuse
        else if g.knowsLong name && value.isNone then throw (flag (name == "version"))
        else throw .misuse
      | .short (letter :: _), _ =>
        if g.knowsShort letter then throw (flag (letter == 'V')) else throw .misuse
      | _, _ => throw .misuse

/-- The names of the actions. -/
def actionNames : List String := ["doctor", "run", "ls", "help"]

/-- The action of a name with the arguments behind it. -/
def actionOf (o : Options) (name : String) (arguments : List String) : Reading Invocation := do
  let behind (g : Grammar) : Reading (Options × List String) := do
    let (inner, plain) ← read g {} [] arguments
    return (⟨inner.config <|> o.config, inner.profile <|> o.profile⟩, plain)
  match name with
  | "doctor" => return .action (← behind {}).1 .doctor
  | "run" =>
    match ← behind { places := 1, tail := .free } with
    | (o, script :: arguments) => return .action o (.run script arguments)
    | (_, []) => throw .misuse
  | "ls" =>
    let (o, plain) ← behind { places := 1 }
    return .action o (.list (plain.headD "/"))
  | "help" =>
    match arguments with
    | [] => return .help
    | [name] => if actionNames.contains name then return .help else throw .misuse
    | _ => throw .misuse
  | _ => throw .misuse

/-- Reads a command line from its start. -/
def readAll (arguments : List String) : Reading Invocation := do
  match ← read { hasVersion := true, tail := .action } {} [] arguments with
  | (o, name :: arguments) => actionOf o name arguments
  | (_, []) => throw .misuse

/-- What the arguments of a command line ask for. -/
def Invocation.ofArguments (arguments : List String) : Invocation :=
  match readAll arguments with
  | .ok i | .error i => i

end Sandbox.Command
