import Sandbox.Text.Utf8

/-!
# Flaws of program texts

Why a text is no chunk. A flaw stands on a line and, where a token is to blame, near that token.
-/

namespace Sandbox.Script

/-- What is wrong with a program text. -/
inductive Flaw.Cause
  | malformedNumber
  | unfinishedText
  | unfinishedLong (what : String) (start : Nat)
  | badLongBracket
  | badEscape
  | hexDigitExpected
  | openBraceExpected
  | closeBraceExpected
  | codePointTooLarge
  | byteTooLarge
  | unexpectedSymbol
  | expected (what : String)
  /-- What closes a construct is missing, far from its start. -/
  | unclosed (what start : String) (line : Nat)
  | noCall
  | variadicOutside
  | constant (name : String)
  | unknownAttribute (name : String)
  | closingTwice
  | noLabel (name : String) (line : Nat)
  | leaveOutside (line : Nat)
  | labelTwice (name : String) (line : Nat)
  | jumpIntoScope (label : String) (line : Nat) (variableName : String)
  | tooDeep
  deriving DecidableEq, Repr

/-- A flaw of a program text. -/
structure Flaw where
  line : Nat
  cause : Flaw.Cause
  /-- The token to blame, as error texts show it. -/
  near : Option String := none
  deriving DecidableEq, Repr

/-- The wording of a cause. -/
def Flaw.Cause.message : Flaw.Cause → String
  | .malformedNumber => "malformed number"
  | .unfinishedText => "unfinished string"
  | .unfinishedLong what start => s!"unfinished long {what} (starting at line {start})"
  | .badLongBracket => "invalid long string delimiter"
  | .badEscape => "invalid escape sequence"
  | .hexDigitExpected => "hexadecimal digit expected"
  | .openBraceExpected => "missing '\x7b' in \\u\x7bxxxx\x7d"
  | .closeBraceExpected => "missing '\x7d' in \\u\x7bxxxx\x7d"
  | .codePointTooLarge => "UTF-8 value too large"
  | .byteTooLarge => "decimal escape too large"
  | .unexpectedSymbol => "unexpected symbol"
  | .expected what => s!"{what} expected"
  | .unclosed what start line => s!"{what} expected (to close {start} at line {line})"
  | .noCall => "syntax error"
  | .variadicOutside => "cannot use '...' outside a vararg function"
  | .constant name => s!"attempt to assign to const variable '{name}'"
  | .unknownAttribute name => s!"unknown attribute '{name}'"
  | .closingTwice => "multiple to-be-closed locals in local list"
  | .noLabel name line => s!"no visible label '{name}' for <goto> at line {line}"
  | .leaveOutside line => s!"break outside loop at line {line}"
  | .labelTwice name line => s!"label '{name}' already defined on line {line}"
  | .jumpIntoScope label line variableName =>
    s!"<goto {label}> at line {line} jumps into the scope of local '{variableName}'"
  | .tooDeep => "C stack overflow"

/-- The text of a flaw in a chunk of a name. A text that is nested too deep to be read on has no place
to name. -/
def Flaw.message (f : Flaw) (chunk : String) : String :=
  let near := match f.near with
    | some token => s!" near {token}"
    | none => ""
  match f.cause with
  | .tooDeep => f.cause.message
  | cause => s!"{chunk}:{f.line}: {cause.message}{near}"

end Sandbox.Script
