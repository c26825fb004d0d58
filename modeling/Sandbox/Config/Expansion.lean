import Sandbox.Surroundings
import Sandbox.Text.Alphanumeric
import Sandbox.Text.Replace

/-!
# Expansion of paths

A path in a configuration may name variables, as `$NAME` or between braces, where a default may follow
the name behind `:-`. Two dollar signs stand for one. A tilde at the start stands for the home directory,
unless a variable has brought it there.
-/

namespace Sandbox.Expansion

/-- The characters of a name that stands without braces. -/
def isNameCharacter (c : Char) : Bool := c.isLetterOrDigit || c = '_'

/-- The text up to the mark of a default, and the default. -/
def splitDefault : List Char → List Char × Option (List Char)
  | ':' :: '-' :: rest => ([], some rest)
  | c :: rest =>
    let (name, standard) := splitDefault rest
    (c :: name, standard)
  | [] => ([], none)

/-- The value of what stands between braces. A default has to have a name in front of it. -/
def braced (value : String → Option String) (inside : List Char) : Option (List Char) :=
  let (name, standard) := match splitDefault inside with
    | ([], some _) => (inside, none)
    | parts => parts
  match value (String.ofList name) with
  | some v => some v.toList
  | none => standard

/-- The characters up to a closing brace. -/
def notClosing (c : Char) : Bool := c ≠ '\x7d'

/-- The text with the values of its variables; nothing if one of them has none. A dollar sign that
begins no variable stays as it is, as do a dollar sign and a brace that is never closed. -/
def substitute (value : String → Option String) (s : List Char) : Option (List Char) :=
  match s with
  | [] => some []
  | '$' :: '$' :: rest => ('$' :: ·) <$> substitute value rest
  | '$' :: '\x7b' :: rest =>
    if rest.all notClosing then (['$', '\x7b'] ++ ·) <$> substitute value rest
    else do
      let v ← braced value (rest.takeWhile notClosing)
      return v ++ (← substitute value ((rest.dropWhile notClosing).drop 1))
  | '$' :: c :: rest =>
    if isNameCharacter c then do
      let v ← value (String.ofList (c :: rest.takeWhile isNameCharacter))
      return v.toList ++ (← substitute value (rest.dropWhile isNameCharacter))
    else ('$' :: ·) <$> substitute value (c :: rest)
  | c :: rest => (c :: ·) <$> substitute value rest
  termination_by s.length
  decreasing_by
    all_goals
      have closed := (List.dropWhile_suffix (l := rest) notClosing).length_le
      have named := (List.dropWhile_suffix (l := rest) isNameCharacter).length_le
      simp only [List.length_drop, List.length_cons]
      omega

/-- A path with the home directory for a tilde that is its first step. -/
def tilde (home : Option String) (s : List Char) : List Char :=
  match s, home with
  | ['~'], some home => home.toList
  | '~' :: '/' :: rest, some home => home.toList ++ '/' :: rest
  | s, _ => s

/-- A path with its variables and its tilde expanded. -/
def path (w : Surroundings) (text : String) : Option String := do
  let s := text.toList
  let expanded ← substitute w.valueOf? s
  return String.ofList (if s.head? = some '~' then tilde w.home? expanded else expanded)

/-- What stands for the root in the other paths of a profile. -/
def rootMark : String := "\x7b\x7broot\x7d\x7d"

/-- A path of a profile with the root put in and then expanded. -/
def pathBelow (w : Surroundings) (root text : String) : Option String :=
  path w (String.ofList (replaceAll rootMark.toList root.toList text.toList))

end Sandbox.Expansion
